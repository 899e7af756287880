import Mathlib.Logic.Relation
import Stencil.Proofs.WellFormedArena

/-!
# Places and nesting

Each node keeps the place of a substitution that the compilation met, and the text there is that
substitution. Two substitutions are one inside the other in the source exactly when one is in a body
below the other in the arena, and otherwise they do not overlap.
-/
namespace Stencil

open Relation

/-- The place is strictly inside another one, with at least a byte of it on both sides. -/
def Span.Inside (inner outer : Span) : Prop :=
  outer.start < inner.start ∧ inner.stop < outer.stop

namespace Arena

/-- Node `i` is filled into a body that holds node `j`, which is one step of nesting. -/
def Child (arena : Arena) (i j : Nat) : Prop :=
  ∃ b, arena.inlined i = some b ∧ j ∈ arena.within b

/-- Node `j` is in a body below node `i`, after one step of nesting or more. -/
def Below (arena : Arena) : Nat → Nat → Prop :=
  TransGen arena.Child

/-- Node `i` is the first link of a substitution, which is so when it is its own origin. -/
def isHead (arena : Arena) (i : Nat) : Bool :=
  arena.nodes[i]?.map Node.origin == some i

/-- The first links of all substitutions, in the order of their numbers. -/
def heads (arena : Arena) : List Nat :=
  (numbers 0 arena.nodes.length).filter arena.isHead

variable {arena : Arena} {c d : Counts} {lo hi n n' s s' start more : Nat} {raw : Text}
  {last : NodeTarget} {subs : List Nat} {visits : List Visit}

/-! ### Heads and visits -/

theorem ChainAt.isHead_iff (h : arena.ChainAt c start raw more last) {i : Nat} (hi : i ≤ more) :
    arena.isHead (c.nodes + i) = true ↔ i = 0 := by
  obtain ⟨node, hnode, hlink, -⟩ := h.link i hi
  rw [isHead, hnode, Option.map_some, hlink.origin, beq_iff_eq, Option.some.injEq]
  omega

theorem ChainAt.filter_isHead (h : arena.ChainAt c start raw more last) :
    (numbers c.nodes (c.nodes + more + 1)).filter arena.isHead = [c.nodes] := by
  have hrest : (numbers (c.nodes + 1) (c.nodes + more + 1)).filter arena.isHead = [] := by
    rw [List.filter_eq_nil_iff]
    intro i hi
    obtain ⟨hlow, hhigh⟩ := mem_numbers.1 hi
    obtain ⟨k, rfl⟩ := Nat.exists_eq_add_of_le (Nat.le_of_lt hlow)
    rw [h.isHead_iff (by omega)]
    omega
  have hhead : arena.isHead c.nodes = true := (h.isHead_iff (Nat.zero_le more)).2 rfl
  rw [numbers_cons (by omega), List.filter_cons_of_pos hhead, hrest]

/-- The first links are those of the substitutions that were met, in the same order and as many. -/
theorem Chains.forall₂_heads {r : Nat → Visit → Prop} (h : arena.Chains lo hi n n' s s' visits)
    (hr : ∀ (c : Counts) start raw more last, arena.ChainAt c start raw more last →
      ⟨start + 2, raw⟩ ∈ visits → r c.nodes ⟨start + 2, raw⟩) :
    List.Forall₂ r ((numbers n n').filter arena.isHead) visits := by
  induction h with
  | nil => simp
  | @cons lo hi n' s' start more raw c last visits hstart hchain hrest ih =>
    obtain ⟨-, hnodes, -⟩ := hrest.le
    rw [← numbers_append (by omega : c.nodes ≤ c.nodes + more + 1) hnodes, List.filter_append,
      hchain.filter_isHead]
    refine .cons (hr c start raw more last hchain List.mem_cons_self) (ih ?_)
    exact fun c start raw more last hchain hmem =>
      hr c start raw more last hchain (List.mem_cons_of_mem _ hmem)

/-! ### Below -/

/-- Each link of a substitution is the first one or below it, as each link is filled into the next
one. -/
theorem ChainAt.reaches (h : arena.ChainAt c start raw more last) {i : Nat} (hi : i ≤ more) :
    ReflTransGen arena.Child c.nodes (c.nodes + i) := by
  induction i with
  | zero => exact .refl
  | succ i ih =>
    refine (ih (Nat.le_of_succ_le hi)).tail ⟨c.bodies + i, h.inlined_link hi, ?_⟩
    rw [h.within_link hi, List.mem_singleton]
    omega

/-- The last link is filled into the substitutions of its inline template, which are one step below
it. -/
theorem ChainAt.child_last (h : arena.ChainAt c start raw more (.inline (c.bodies + more)))
    {entry : BodyEntry} (hbody : arena.bodies[c.bodies + more]? = some entry) {sub : Nat}
    (hsub : sub ∈ entry.substitutions) : arena.Child (c.nodes + more) sub :=
  ⟨c.bodies + more, h.inlined_last, by rwa [within_of_getElem? hbody]⟩

namespace Region

/-- Each node of a region is one that it starts with, or is below one. So the region is a forest
with these roots. -/
theorem reaches (h : arena.Region lo hi c d subs visits) {i : Nat} (hlo : c.nodes ≤ i)
    (hhi : i < d.nodes) : ∃ sub ∈ subs, ReflTransGen arena.Child sub i := by
  induction h with
  | nil => omega
  | @leaf _ _ _ more _ _ c _ _ _ _ hchain _ _ ih =>
    rcases Nat.lt_or_ge i (c.nodes + more + 1) with hlt | hge
    · obtain ⟨k, rfl⟩ := Nat.exists_eq_add_of_le hlo
      exact ⟨c.nodes, List.mem_cons_self, hchain.reaches (by omega)⟩
    · obtain ⟨sub, hsub, hreach⟩ := ih hge hhi
      exact ⟨sub, List.mem_cons_of_mem _ hsub, hreach⟩
  | @inline _ _ _ more _ entry c mid _ _ _ _ _ hchain hbody _ _ _ ihinner ih =>
    rcases Nat.lt_or_ge i (c.nodes + more + 1) with hlt | hge
    · obtain ⟨k, rfl⟩ := Nat.exists_eq_add_of_le hlo
      exact ⟨c.nodes, List.mem_cons_self, hchain.reaches (by omega)⟩
    rcases Nat.lt_or_ge i mid.nodes with hlt | hge'
    · obtain ⟨sub, hsub, hreach⟩ := ihinner hge hlt
      exact ⟨c.nodes, List.mem_cons_self,
        (hchain.reaches (Nat.le_refl more)).trans (.head (hchain.child_last hbody hsub) hreach)⟩
    · obtain ⟨sub, hsub, hreach⟩ := ih hge' hhi
      exact ⟨sub, List.mem_cons_of_mem _ hsub, hreach⟩

/-- What is below a node of a region comes after it in the region, and does not leave it. -/
theorem lt_of_below (h : arena.Region lo hi c d subs visits) {i j : Nat} (hlo : c.nodes ≤ i)
    (hhi : i < d.nodes) (hbelow : arena.Below i j) : i < j ∧ j < d.nodes := by
  induction hbelow with
  | single hchild =>
    obtain ⟨b, hb, hj⟩ := hchild
    exact h.lt_of_child hlo hhi hb hj
  | tail _ hchild ih =>
    obtain ⟨b, hb, hj⟩ := hchild
    have hnext := h.lt_of_child (by omega) ih.2 hb hj
    omega

/-- The places of the nodes of a region are in its stretch of the source, and none of them is
empty. -/
theorem span_bounds (h : arena.Region lo hi c d subs visits) {i : Nat} {node : Node}
    (hlo : c.nodes ≤ i) (hhi : i < d.nodes) (hnode : arena.nodes[i]? = some node) :
    lo ≤ node.span.start ∧ node.span.stop ≤ hi ∧ node.span.start < node.span.stop := by
  induction h with
  | nil => omega
  | @leaf _ _ _ more _ _ c _ _ _ hstart hchain _ hrest ih =>
    obtain ⟨hle, -⟩ := hrest.le
    rcases Nat.lt_or_ge i (c.nodes + more + 1) with hlt | hge
    · rw [(hchain.isLink hlo (by omega) hnode).span, Span.start_ofBody, Span.stop_ofBody]
      omega
    · have hspan := ih hge hhi
      omega
  | @inline _ _ _ more _ _ c mid _ _ _ _ hstart hchain _ _ _ hrest ihinner ih =>
    obtain ⟨hle, -⟩ := hrest.le
    rcases Nat.lt_or_ge i (c.nodes + more + 1) with hlt | hge
    · rw [(hchain.isLink hlo (by omega) hnode).span, Span.start_ofBody, Span.stop_ofBody]
      omega
    rcases Nat.lt_or_ge i mid.nodes with hlt | hge'
    · have hspan := ihinner hge hlt
      omega
    · have hspan := ih hge' hhi
      omega

/-- A node of what follows a region is not below a node of that, and its place comes later. -/
theorem apart {mid : Counts} {stop : Nat} {subs' : List Nat} {visits' : List Visit}
    (h : arena.Region lo stop c mid subs visits) (hrest : arena.Region stop hi mid d subs' visits')
    {i j : Nat} {a b : Node} (hi : c.nodes ≤ i) (hi' : i < mid.nodes) (hj : mid.nodes ≤ j)
    (hj' : j < d.nodes) (ha : arena.nodes[i]? = some a) (hb : arena.nodes[j]? = some b) :
    ¬ arena.Below i j ∧ a.span.stop ≤ b.span.start := by
  constructor
  · intro hbelow
    have hclosed := h.lt_of_below hi hi' hbelow
    omega
  · have hspan := h.span_bounds hi hi' ha
    have hspan' := hrest.span_bounds hj hj' hb
    omega

/-- The first link of a later substitution is below that of an earlier one, and its place is inside
the place of that one, or neither is so and its place comes later. -/
theorem below_or_after (h : arena.Region lo hi c d subs visits) {i j : Nat} {a b : Node}
    (hlo : c.nodes ≤ i) (hij : i < j) (hhi : j < d.nodes) (ha : arena.nodes[i]? = some a)
    (hb : arena.nodes[j]? = some b) (hai : a.origin = i) (hbj : b.origin = j) :
    (arena.Below i j ∧ b.span.Inside a.span) ∨
      (¬ arena.Below i j ∧ a.span.stop ≤ b.span.start) := by
  -- The later one is no link of the first substitution, for it is a first link itself.
  have hlater {c : Counts} {start more : Nat} {raw : Text} {last : NodeTarget}
      (hchain : arena.ChainAt c start raw more last) (hlo : c.nodes ≤ i) :
      c.nodes + more + 1 ≤ j := by
    by_contra hlink
    have horigin := (hchain.isLink (by omega) (by omega) hb).origin
    omega
  induction h with
  | nil => omega
  | @leaf _ _ _ more _ _ c _ _ _ hstart hchain hlast hrest ih =>
    rcases Nat.lt_or_ge i (c.nodes + more + 1) with hi | hi
    · have hfirst := Region.leaf hstart hchain hlast (.nil (Nat.le_refl _))
      exact .inr (hfirst.apart hrest hlo hi (hlater hchain hlo) hhi ha hb)
    · exact ih hi hhi
  | @inline _ _ start more raw entry c mid _ _ _ _ hstart hchain hbody halt hinner hrest ihinner
      ih =>
    rcases Nat.lt_or_ge i mid.nodes with hi | hi
    · rcases Nat.lt_or_ge j mid.nodes with hj | hj
      · rcases Nat.lt_or_ge i (c.nodes + more + 1) with hfirst | hfirst
        · have hlink := hchain.isLink hlo (by omega) ha
          obtain rfl : c.nodes = i := by rw [← hlink.origin, hai]
          obtain ⟨sub, hsub, hreach⟩ := hinner.reaches (hlater hchain hlo) hj
          have hbelow : arena.Below (c.nodes + more) j :=
            .head' (hchain.child_last hbody hsub) hreach
          have hspan := hinner.span_bounds (hlater hchain hlo) hj hb
          refine .inl ⟨.trans_right (hchain.reaches (Nat.le_refl more)) hbelow, ?_⟩
          rw [hlink.span, Span.Inside, Span.start_ofBody, Span.stop_ofBody]
          omega
        · exact ihinner hfirst hj
      · have hfirst := Region.inline hstart hchain hbody halt hinner (.nil (Nat.le_refl _))
        exact .inr (hfirst.apart hrest hlo hi hj hhi ha hb)
    · exact ih hi hhi

end Region

end Arena

/-! ### The source map -/

/-- The node is link `k` of the substitution that was met: it has its place, and its kind and name
are those read from its body. -/
structure Node.MadeFrom (node : Node) (v : Visit) (k : Nat) : Prop where
  offset : v.offset = node.span.start + 2
  stop : node.span.stop = v.offset + v.body.bytes + 2
  kind : node.kind = (Directive.read v.body).links.1
  name : (Directive.read v.body).links.2[k]? = some node.name
  rewind : k = 0 → node.rewind = (Directive.read v.body).rewind

/-- An arena keeps the places of what a compilation of the source met, with their order and their
nesting. -/
structure Arena.Maps (arena : Arena) (source : Text) (visits : List Visit) : Prop where
  /-- The place of each node is in the source, and the raw text there is the substitution that the
  node was made from. -/
  node : ∀ i node, arena.nodes[i]? = some node → node.span.stop ≤ source.bytes ∧
    ∃ v ∈ visits, node.MadeFrom v (i - node.origin) ∧ arena.raw source i = enclose v.body
  /-- The first links are made from what was met, in the same order and with nothing left out. -/
  heads : List.Forall₂ (fun i v => ∃ node, arena.nodes[i]? = some node ∧ node.MadeFrom v 0 ∧
    arena.raw source i = enclose v.body) arena.heads visits
  ordered : ∀ i ∈ arena.heads, ∀ j ∈ arena.heads, ∀ a b, arena.nodes[i]? = some a →
    arena.nodes[j]? = some b → i < j → a.span.start < b.span.start
  /-- A place is inside that of an earlier first link exactly when its node is below that one, and
  otherwise it comes after it. -/
  nested : ∀ i ∈ arena.heads, ∀ j ∈ arena.heads, ∀ a b, arena.nodes[i]? = some a →
    arena.nodes[j]? = some b → i < j → (arena.Below i j ∧ b.span.Inside a.span) ∨
      (¬ arena.Below i j ∧ a.span.stop ≤ b.span.start)
  below : ∀ i j, arena.Below i j → i < j

namespace Arena

variable {arena : Arena} {source : Text} {visits : List Visit}

theorem mem_heads {i : Nat} {node : Node} (hnode : arena.nodes[i]? = some node) :
    i ∈ arena.heads ↔ node.origin = i := by
  obtain ⟨hlt, -⟩ := List.getElem?_eq_some_iff.1 hnode
  rw [heads, List.mem_filter, isHead, hnode, Option.map_some, beq_iff_eq, Option.some.injEq]
  exact and_iff_right (mem_numbers.2 ⟨Nat.zero_le i, hlt⟩)

namespace ChainAt

variable {c : Counts} {start more i : Nat} {raw : Text} {last : NodeTarget} {node : Node}

theorem madeFrom (h : arena.ChainAt c start raw more last) (hlo : c.nodes ≤ i)
    (hhi : i ≤ c.nodes + more) (hnode : arena.nodes[i]? = some node) :
    node.MadeFrom ⟨start + 2, raw⟩ (i - node.origin) := by
  have hlink := h.isLink hlo hhi hnode
  rw [hlink.origin]
  refine ⟨?_, ?_, hlink.kind, hlink.name, hlink.first⟩
  · rw [hlink.span, Span.start_ofBody]
  · rw [hlink.span, Span.stop_ofBody]
    simp only
    omega

/-- The raw text of a link is that of the whole substitution, whichever of its links it is. -/
theorem raw_eq (h : arena.ChainAt c start raw more last) (hlo : c.nodes ≤ i)
    (hhi : i ≤ c.nodes + more) (hnode : arena.nodes[i]? = some node)
    (hraw : EnclosedAt source start raw) : arena.raw source i = enclose raw := by
  obtain ⟨head, hhead, hfirst, -⟩ := h.link 0 (Nat.zero_le more)
  have horigin : arena.nodes[node.origin]? = some head := by
    rw [(h.isLink hlo hhi hnode).origin]
    exact hhead
  rw [Arena.raw, hnode]
  simp only
  rw [horigin, Option.getD_some, hfirst.span, hraw.slice]

end ChainAt

theorem maps_of_region {entry : BodyEntry}
    (h : arena.Region 0 source.bytes ⟨0, 1, 0⟩
      ⟨arena.nodes.length, arena.bodies.length, arena.shared.length⟩ entry.substitutions visits)
    (hvisits : ∀ v ∈ visits, ∃ start, v.offset = start + 2 ∧ EnclosedAt source start v.body) :
    arena.Maps source visits := by
  have hbody {start : Nat} {raw : Text} (hmem : ⟨start + 2, raw⟩ ∈ visits) :
      EnclosedAt source start raw := by
    obtain ⟨start', hstart, hbody⟩ := hvisits _ hmem
    rwa [Nat.add_right_cancel hstart]
  refine ⟨fun i node hnode => ?_, ?_, ?_, ?_, ?_⟩
  · obtain ⟨hi, -⟩ := List.getElem?_eq_some_iff.1 hnode
    obtain ⟨c, start, raw, more, last, hchain, hmem, hlo, hhi, -⟩ :=
      h.chains.exists_chainAt (Nat.zero_le i) hi
    exact ⟨(h.span_bounds (Nat.zero_le i) hi hnode).2.1, _, hmem, hchain.madeFrom hlo hhi hnode,
      hchain.raw_eq hlo hhi hnode (hbody hmem)⟩
  · refine h.chains.forall₂_heads fun c start raw more last hchain hmem => ?_
    obtain ⟨head, hhead, hlink, -⟩ := hchain.link 0 (Nat.zero_le more)
    have hmade := hchain.madeFrom (Nat.le_refl _) (Nat.le_add_right _ _) hhead
    rw [hlink.origin, Nat.sub_self] at hmade
    exact ⟨head, hhead, hmade,
      hchain.raw_eq (Nat.le_refl _) (Nat.le_add_right _ _) hhead (hbody hmem)⟩
  · intro i hi j hj a b ha hb hij
    obtain ⟨hlt, -⟩ := List.getElem?_eq_some_iff.1 hb
    rw [mem_heads ha] at hi
    rw [mem_heads hb] at hj
    rcases h.chains.compare (Nat.zero_le i) (Nat.le_of_lt hij) hlt ha hb with heq | hless
    · omega
    · exact hless.2.2
  · intro i hi j hj a b ha hb hij
    obtain ⟨hlt, -⟩ := List.getElem?_eq_some_iff.1 hb
    exact h.below_or_after (Nat.zero_le i) hij hlt ha hb ((mem_heads ha).1 hi) ((mem_heads hb).1 hj)
  · intro i j hbelow
    obtain ⟨next, ⟨b, hb, -⟩, -⟩ := TransGen.head'_iff.1 hbelow
    exact (h.lt_of_below (Nat.zero_le i) (lt_length_of_inlined hb) hbelow).1

end Arena

/-- A source that compiles has an arena with the places of the substitutions that compiling it met.
An error of a source that does not compile is at the braces that it is about. -/
theorem compile_located (source : Text) :
    (∀ compiled, compile source = .ok compiled → compiled.arena.Maps source (visits source)) ∧
      ∀ error, compile source = .error error → error.Marks source := by
  have hmapped := mapped_compileSource source
  constructor
  · intro compiled h
    obtain ⟨entry, -, -, hregion⟩ := Compiled.region h
    exact Arena.maps_of_region hregion hmapped.visits
  · intro error h
    refine hmapped.error error ?_
    unfold compile at h
    cases hresult : (compileSource 0 source).result with
    | error found =>
      rw [hresult] at h
      cases h
      rfl
    | ok body =>
      rw [hresult] at h
      cases h

end Stencil
