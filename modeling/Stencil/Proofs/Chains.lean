import Stencil.Proofs.Regions

/-!
# The substitutions of a region

Read flat, a region is one substitution after another, with those in inline templates among them.
Their links are neighbours, and from each substitution to the next one the first node, the joining
and the place in the source all go up.
-/
namespace Stencil

namespace Arena

/-- One substitution after another takes the nodes from `n` to `n'` and the joinings from `s` to
`s'`, and opens in the source from byte `lo` to byte `hi`. -/
inductive Chains (arena : Arena) : Nat → Nat → Nat → Nat → Nat → Nat → List Visit → Prop
  | nil {lo hi n s : Nat} : lo ≤ hi → Chains arena lo hi n n s s []
  | cons {lo hi n' s' start more : Nat} {raw : Text} {c : Counts} {last : NodeTarget}
    {visits : List Visit} :
    lo ≤ start → arena.ChainAt c start raw more last →
    Chains arena (start + 2) hi (c.nodes + more + 1) n' (c.shared + 1) s' visits →
    Chains arena lo hi c.nodes n' c.shared s' (⟨start + 2, raw⟩ :: visits)

variable {arena : Arena} {c d : Counts} {lo hi n n' s s' start more : Nat} {raw : Text}
  {last : NodeTarget} {subs : List Nat} {visits : List Visit}

namespace Chains

theorem widen {lo' : Nat} (h : arena.Chains lo hi n n' s s' visits) (hlo : lo' ≤ lo) :
    arena.Chains lo' hi n n' s s' visits := by
  cases h with
  | nil hle => exact .nil (Nat.le_trans hlo hle)
  | cons hstart hchain hrest => exact .cons (Nat.le_trans hlo hstart) hchain hrest

theorem append {mid n'' s'' : Nat} {visits' : List Visit} (h : arena.Chains lo mid n n' s s' visits)
    (h' : arena.Chains mid hi n' n'' s' s'' visits') :
    arena.Chains lo hi n n'' s s'' (visits ++ visits') := by
  induction h with
  | nil hle => exact h'.widen hle
  | cons hstart hchain _ ih => exact .cons hstart hchain (ih h')

end Chains

/-- A region is one substitution after another, each with all that it adds to the arena. -/
theorem Region.chains (h : arena.Region lo hi c d subs visits) :
    arena.Chains lo hi c.nodes d.nodes c.shared d.shared visits := by
  induction h with
  | nil hle => exact .nil hle
  | leaf hlo hchain _ _ ih => exact .cons hlo hchain (ih.widen (by omega))
  | inline hlo hchain _ _ _ _ ihinner ih =>
    exact .cons hlo hchain (ihinner.append (ih.widen (by omega)))

namespace ChainAt

/-- The node at one of the numbers of a substitution is its link, counted from the number of its
first node. -/
theorem isLink (h : arena.ChainAt c start raw more last) {i : Nat} {node : Node}
    (hlo : c.nodes ≤ i) (hhi : i ≤ c.nodes + more) (hnode : arena.nodes[i]? = some node) :
    node.IsLink c start raw (i - c.nodes) := by
  obtain ⟨link, hlink, hlinks, -⟩ := h.link (i - c.nodes) (by omega)
  rw [Nat.add_sub_cancel' hlo, hnode, Option.some.injEq] at hlink
  exact hlink ▸ hlinks

end ChainAt

namespace Chains

theorem le (h : arena.Chains lo hi n n' s s' visits) : lo ≤ hi ∧ n ≤ n' ∧ s ≤ s' := by
  induction h with
  | nil hle => exact ⟨hle, Nat.le_refl _, Nat.le_refl _⟩
  | cons => omega

/-- What a node says of its substitution is in the bounds of the region that the node belongs to. -/
theorem bounds (h : arena.Chains lo hi n n' s s' visits) {i : Nat} {node : Node} (hlo : n ≤ i)
    (hhi : i < n') (hnode : arena.nodes[i]? = some node) :
    n ≤ node.origin ∧ node.origin ≤ i ∧ s ≤ node.shared ∧ node.shared < s' ∧
      lo ≤ node.span.start := by
  induction h with
  | nil => omega
  | @cons lo hi n' s' start more raw c last visits hstart hchain hrest ih =>
    obtain ⟨-, hnodes, hshared⟩ := hrest.le
    rcases Nat.lt_or_ge i (c.nodes + more + 1) with hlt | hge
    · have hlink := hchain.isLink hlo (by omega) hnode
      rw [hlink.origin, hlink.shared, hlink.span, Span.start_ofBody]
      omega
    · have hbounds := ih hge hhi
      omega

/-- Each node is a link of one of the substitutions, and the nodes with its origin are the links of
that one only. -/
theorem exists_chainAt (h : arena.Chains lo hi n n' s s' visits) {i : Nat} (hlo : n ≤ i)
    (hhi : i < n') : ∃ c start raw more last, arena.ChainAt c start raw more last ∧
      ⟨start + 2, raw⟩ ∈ visits ∧ c.nodes ≤ i ∧ i ≤ c.nodes + more ∧
      ∀ j node, n ≤ j → j < n' → arena.nodes[j]? = some node → node.origin = c.nodes →
        j ≤ c.nodes + more := by
  induction h with
  | nil => omega
  | @cons lo hi n' s' start more raw c last visits hstart hchain hrest ih =>
    rcases Nat.lt_or_ge i (c.nodes + more + 1) with hlt | hge
    · refine ⟨c, start, raw, more, last, hchain, List.mem_cons_self, hlo, by omega, ?_⟩
      intro j node _ hj hnode horigin
      by_contra hlater
      have hbounds := hrest.bounds (by omega) hj hnode
      omega
    · obtain ⟨c', start', raw', more', last', hchain', hmem, hfirst, hlast, honly⟩ := ih hge hhi
      refine ⟨c', start', raw', more', last', hchain', List.mem_cons_of_mem _ hmem, hfirst, hlast,
        fun j node hle hj hnode horigin => ?_⟩
      rcases Nat.lt_or_ge j (c.nodes + more + 1) with hj' | hj'
      · omega
      · exact honly j node hj' hj hnode horigin

/-- Two nodes are links of one substitution, or the later node is one of a later substitution, with
a larger origin and joining. -/
theorem compare (h : arena.Chains lo hi n n' s s' visits) {i j : Nat} {a b : Node} (hlo : n ≤ i)
    (hij : i ≤ j) (hhi : j < n') (ha : arena.nodes[i]? = some a) (hb : arena.nodes[j]? = some b) :
    (a.origin = b.origin ∧ a.shared = b.shared ∧ a.span = b.span) ∨
      (a.origin < b.origin ∧ a.shared < b.shared ∧ a.span.start < b.span.start) := by
  induction h with
  | nil => omega
  | @cons lo hi n' s' start more raw c last visits hstart hchain hrest ih =>
    rcases Nat.lt_or_ge i (c.nodes + more + 1) with hi | hi
    · have hlink := hchain.isLink hlo (by omega) ha
      rw [hlink.origin, hlink.shared, hlink.span]
      rcases Nat.lt_or_ge j (c.nodes + more + 1) with hj | hj
      · have hlink' := hchain.isLink (Nat.le_trans hlo hij) (by omega) hb
        exact .inl ⟨hlink'.origin.symm, hlink'.shared.symm, hlink'.span.symm⟩
      · have hbounds := hrest.bounds hj hhi hb
        rw [Span.start_ofBody]
        omega
    · exact ih hi hhi

/-- Each joining is that of a node, so that no joining is there for nothing. -/
theorem exists_shared (h : arena.Chains lo hi n n' s s' visits) {k : Nat} (hlo : s ≤ k)
    (hhi : k < s') : ∃ node ∈ arena.nodes, node.shared = k := by
  induction h with
  | nil => omega
  | @cons lo hi n' s' start more raw c last visits hstart hchain hrest ih =>
    rcases Nat.eq_or_lt_of_le hlo with rfl | hlt
    · obtain ⟨node, hnode, hlink, -⟩ := hchain.link 0 (Nat.zero_le more)
      exact ⟨node, List.mem_of_getElem? hnode, hlink.shared⟩
    · exact ih hlt hhi

end Chains

end Arena

end Stencil
