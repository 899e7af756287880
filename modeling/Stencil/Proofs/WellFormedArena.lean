import Stencil.Proofs.Chains

/-!
# Well-formed arenas

The arena of a compiled template is a tree: its numbers are in range, each node is in one body,
each body but the root is what one node is filled into, and what a node is filled into has larger
numbers.
Each substitution is a chain of links with consecutive numbers, and has a joining of its own.
-/
namespace Stencil

namespace Arena

/-- All numbers that are stored are those of nodes, bodies and joinings, so that no lookup by a
stored number fails. -/
structure InRange (arena : Arena) : Prop where
  substitutions : ∀ entry ∈ arena.bodies, ∀ i ∈ entry.substitutions, i < arena.nodes.length
  target : ∀ node ∈ arena.nodes, ∀ b, node.target = .inline b → b < arena.bodies.length
  origin : ∀ node ∈ arena.nodes, node.origin < arena.nodes.length
  shared : ∀ node ∈ arena.nodes, node.shared < arena.shared.length

/-- The bodies are a tree with body 0 as its root. Each other body hangs on one node, and each node
on one body. -/
structure IsTree (arena : Arena) : Prop where
  root : 0 < arena.bodies.length
  /-- Each node is a substitution of one body, and there once. No node is out of reach from the
  root. -/
  nodes : ((numbers 0 arena.bodies.length).flatMap arena.within).Perm
    (numbers 0 arena.nodes.length)
  /-- Each body but the root is what one node is filled into. They are numbered in the order of
  these nodes. -/
  bodies : (numbers 0 arena.nodes.length).filterMap arena.inlined = numbers 1 arena.bodies.length
  /-- What a node is filled into comes after the body that holds it, with only later nodes. So the
  tree has no circles. -/
  below : ∀ b i b', i ∈ arena.within b → arena.inlined i = some b' →
    b < b' ∧ ∀ j ∈ arena.within b', i < j

/-- The nodes from `first` to `last` are the links of one substitution. They share the joining and
the place in the source. -/
structure IsChain (arena : Arena) (first last : Nat) : Prop where
  link : ∀ i, first ≤ i → i ≤ last → ∃ node head, arena.nodes[i]? = some node ∧
    arena.nodes[first]? = some head ∧ node.origin = first ∧ node.shared = head.shared ∧
      node.span = head.span
  /-- Each link but the last is a value that is filled into the next one. The body between two links
  holds that link and nothing else. -/
  next : ∀ i, first ≤ i → i < last → ∃ node b, arena.nodes[i]? = some node ∧
    node.kind = .value ∧ node.target = .inline b ∧ arena.bodies[b]? = some ⟨[[]], [i + 1]⟩
  /-- Only the first link leads to another scope and has text around it. A later one is looked up in
  the value of the link before it. -/
  later : ∀ i node, first < i → i ≤ last → arena.nodes[i]? = some node →
    node.rewind = 0 ∧ node.leading = [] ∧ node.trailing = []
  only : ∀ i node, arena.nodes[i]? = some node → node.origin = first → first ≤ i ∧ i ≤ last

structure WellFormed (arena : Arena) : Prop where
  alternates : ∀ entry ∈ arena.bodies, entry.Alternates
  inRange : arena.InRange
  tree : arena.IsTree
  /-- Each node is a link of the substitution that starts at its origin. This chain is the only one
  that it belongs to. -/
  chain : ∀ i node, arena.nodes[i]? = some node → ∃ last, arena.IsChain node.origin last ∧
    node.origin ≤ i ∧ i ≤ last
  /-- Different substitutions have different joinings, and different places in the source. Two nodes
  that share either have the same origin. -/
  apart : ∀ a ∈ arena.nodes, ∀ b ∈ arena.nodes, a.shared = b.shared ∨ a.span = b.span →
    a.origin = b.origin
  /-- Each joining is that of a substitution. None is left over from something that was compiled and
  is not there any more. -/
  used : ∀ k < arena.shared.length, ∃ node ∈ arena.nodes, node.shared = k

/-! ### Chains -/

/-- Only a value has links after the first one. A comment or an insertion is always a single
node. -/
theorem kind_of_length {raw : Text} {more : Nat}
    (h : (Directive.read raw).links.2.length = more + 1) (hmore : 0 < more) :
    (Directive.read raw).links.1 = .value := by
  cases hread : Directive.read raw with
  | comment =>
    rw [hread] at h
    simp [Directive.links] at h
    omega
  | substitution clauses =>
    rw [hread, Directive.links] at h
    rw [Directive.links]
    split at h
    · simp at h
      omega
    · rename_i hinsert
      rw [if_neg hinsert]

theorem ChainAt.isChain {arena : Arena} {c : Counts} {start more : Nat} {raw : Text}
    {last : NodeTarget} (h : arena.ChainAt c start raw more last)
    (honly : ∀ i node, arena.nodes[i]? = some node → node.origin = c.nodes →
      c.nodes ≤ i ∧ i ≤ c.nodes + more) : arena.IsChain c.nodes (c.nodes + more) := by
  refine ⟨fun i hlo hhi => ?_, fun i hlo hhi => ?_, fun i node hlo hhi hnode => ?_, honly⟩
  · obtain ⟨k, rfl⟩ := Nat.exists_eq_add_of_le hlo
    obtain ⟨node, hnode, hlink, -⟩ := h.link k (by omega)
    obtain ⟨head, hhead, hfirst, -⟩ := h.link 0 (Nat.zero_le more)
    exact ⟨node, head, hnode, hhead, hlink.origin, by rw [hlink.shared, hfirst.shared],
      by rw [hlink.span, hfirst.span]⟩
  · obtain ⟨k, rfl⟩ := Nat.exists_eq_add_of_le hlo
    obtain ⟨node, hnode, hlink, htarget⟩ := h.link k (by omega)
    rw [if_pos (by omega)] at htarget
    refine ⟨node, c.bodies + k, hnode, ?_, htarget, h.between k (by omega)⟩
    rw [hlink.kind, kind_of_length h.length (by omega)]
  · exact (h.isLink (Nat.le_of_lt hlo) hhi hnode).later (by omega)

/-! ### The whole arena -/

theorem lt_length_of_inlined {arena : Arena} {i b : Nat} (h : arena.inlined i = some b) :
    i < arena.nodes.length := by
  obtain ⟨node, hnode, -⟩ := Option.bind_eq_some_iff.1 h
  exact (List.getElem?_eq_some_iff.1 hnode).1

theorem lt_length_of_mem_within {arena : Arena} {i b : Nat} (h : i ∈ arena.within b) :
    b < arena.bodies.length := by
  by_contra hge
  rw [within, List.getElem?_eq_none (Nat.le_of_not_lt hge)] at h
  cases h

section

variable {arena : Arena} {stop : Nat} {entry : BodyEntry} {visits : List Visit}
  (hroot : arena.bodies[0]? = some entry)
  (h : arena.Region 0 stop ⟨0, 1, 0⟩
    ⟨arena.nodes.length, arena.bodies.length, arena.shared.length⟩ entry.substitutions visits)

include hroot h

theorem isTree_of_region : arena.IsTree := by
  have hbodies : 0 < arena.bodies.length := h.le.2.2.1
  refine ⟨hbodies, ?_, h.filterMap_inlined, fun b i b' hi hb' => ⟨?_, fun j hj => ?_⟩⟩
  · rw [numbers_cons hbodies, List.flatMap_cons, within_of_getElem? hroot]
    exact h.perm_within
  · rcases Nat.eq_zero_or_pos b with rfl | hpos
    · exact (h.lt_of_inlined (Nat.zero_le i) (lt_length_of_inlined hb') hb').1
    · exact h.lt_of_within hpos (lt_length_of_mem_within hi) hi hb'
  · exact (h.lt_of_child (Nat.zero_le i) (lt_length_of_inlined hb') hb' hj).1

theorem inRange_of_region : arena.InRange := by
  have hbounds {node : Node} (hnode : node ∈ arena.nodes) :
      node.origin < arena.nodes.length ∧ node.shared < arena.shared.length := by
    obtain ⟨i, hi⟩ := List.getElem?_of_mem hnode
    obtain ⟨hlt, -⟩ := List.getElem?_eq_some_iff.1 hi
    obtain ⟨-, horigin, -, hshared, -⟩ := h.chains.bounds (Nat.zero_le i) hlt hi
    exact ⟨Nat.lt_of_le_of_lt horigin hlt, hshared⟩
  refine ⟨fun found hfound i hi => ?_, fun node hnode b hb => ?_,
    fun node hnode => (hbounds hnode).1, fun node hnode => (hbounds hnode).2⟩
  · obtain ⟨b, hb⟩ := List.getElem?_of_mem hfound
    rw [← within_of_getElem? hb] at hi
    have hmem := List.mem_flatMap.2
      ⟨b, mem_numbers.2 ⟨Nat.zero_le b, lt_length_of_mem_within hi⟩, hi⟩
    exact (mem_numbers.1 ((isTree_of_region hroot h).nodes.subset hmem)).2
  · obtain ⟨i, hi⟩ := List.getElem?_of_mem hnode
    have hinlined : arena.inlined i = some b := by
      rw [inlined, hi, Option.bind_some, hb]
      rfl
    exact (h.lt_of_inlined (Nat.zero_le i) (lt_length_of_inlined hinlined) hinlined).2

theorem wellFormed_of_region (halt : entry.Alternates) : arena.WellFormed where
  alternates found hfound := by
    obtain ⟨b, hb⟩ := List.getElem?_of_mem hfound
    rcases Nat.eq_zero_or_pos b with rfl | hpos
    · rw [hroot, Option.some.injEq] at hb
      exact hb ▸ halt
    · obtain ⟨hlt, -⟩ := List.getElem?_eq_some_iff.1 hb
      exact h.alternates hpos hlt hb
  inRange := inRange_of_region hroot h
  tree := isTree_of_region hroot h
  chain i node hnode := by
    obtain ⟨hlt, -⟩ := List.getElem?_eq_some_iff.1 hnode
    obtain ⟨c, start, raw, more, last, hchain, -, hfirst, hlast, honly⟩ :=
      h.chains.exists_chainAt (Nat.zero_le i) hlt
    rw [(hchain.isLink hfirst hlast hnode).origin]
    refine ⟨_, hchain.isChain fun j other hother horigin => ?_, hfirst, hlast⟩
    obtain ⟨hj, -⟩ := List.getElem?_eq_some_iff.1 hother
    obtain ⟨-, hle, -⟩ := h.chains.bounds (Nat.zero_le j) hj hother
    exact ⟨horigin ▸ hle, honly j other (Nat.zero_le j) hj hother horigin⟩
  apart a ha b hb hsame := by
    -- The substitution of the later node would have a later joining and a later place.
    have hordered {i j : Nat} {a b : Node} (hij : i ≤ j) (ha : arena.nodes[i]? = some a)
        (hb : arena.nodes[j]? = some b) (hsame : a.shared = b.shared ∨ a.span = b.span) :
        a.origin = b.origin := by
      obtain ⟨hj, -⟩ := List.getElem?_eq_some_iff.1 hb
      rcases h.chains.compare (Nat.zero_le i) hij hj ha hb with ⟨heq, -⟩ | ⟨-, hshared, hspan⟩
      · exact heq
      · rcases hsame with heq | heq
        · omega
        · rw [heq] at hspan
          exact absurd hspan (Nat.lt_irrefl _)
    obtain ⟨i, hi⟩ := List.getElem?_of_mem ha
    obtain ⟨j, hj⟩ := List.getElem?_of_mem hb
    rcases Nat.le_total i j with hij | hij
    · exact hordered hij hi hj hsame
    · exact (hordered hij hj hi (hsame.imp Eq.symm Eq.symm)).symm
  used k hk := h.chains.exists_shared (Nat.zero_le k) hk

end

end Arena

/-- Every source that compiles has a well-formed arena. A reader of the arena can rely on its
numbers without any checks. -/
theorem compile_wellFormed {source : Text} {compiled : Compiled}
    (h : compile source = .ok compiled) : compiled.arena.WellFormed := by
  obtain ⟨entry, hroot, halt, hregion⟩ := Compiled.region h
  exact Arena.wellFormed_of_region hroot hregion halt

/-- A comment, then a dotted name with an inline template that inserts another template. All kinds
of nodes occur in its arena. -/
def nestedSource : Text :=
  "a\x7b\x7b# b\x7d\x7d\x7b\x7bc.d|!e\x7b\x7b!f\x7d\x7d\x7d\x7d".toList

theorem compile_wellFormed_nested :
    ∃ compiled, compile nestedSource = .ok compiled ∧ compiled.arena.WellFormed := by
  have hcompile : (compile nestedSource).toOption.isSome = true := by decide +kernel
  obtain ⟨compiled, h⟩ := exists_compile hcompile
  exact ⟨compiled, h, compile_wellFormed h⟩

end Stencil
