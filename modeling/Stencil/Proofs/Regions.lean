import Stencil.Proofs.Layout

/-!
# The numbers in a region

A region takes its nodes, bodies and joinings from three runs of numbers. Its bodies hold each of
its nodes once, apart from those that it starts with, its nodes are filled into each of its bodies
once, and both go upwards: what a node is filled into comes after it.
-/
namespace Stencil

/-- The numbers from `lo` on and below `hi`, in ascending order. -/
def numbers (lo hi : Nat) : List Nat :=
  List.range' lo (hi - lo)

theorem mem_numbers {lo hi i : Nat} : i ∈ numbers lo hi ↔ lo ≤ i ∧ i < hi := by
  rw [numbers, List.mem_range'_1]
  omega

@[simp] theorem numbers_self (n : Nat) : numbers n n = [] := by
  simp [numbers]

theorem numbers_append {lo mid hi : Nat} (hlo : lo ≤ mid) (hhi : mid ≤ hi) :
    numbers lo mid ++ numbers mid hi = numbers lo hi := by
  have hlength : hi - lo = mid - lo + (hi - mid) := by omega
  rw [numbers, numbers, numbers, hlength, ← List.range'_append_1, Nat.add_sub_cancel' hlo]

theorem numbers_three {a b c d : Nat} (hab : a ≤ b) (hbc : b ≤ c) (hcd : c ≤ d) :
    numbers a d = numbers a b ++ (numbers b c ++ numbers c d) := by
  rw [numbers_append hbc hcd, numbers_append hab (Nat.le_trans hbc hcd)]

theorem numbers_cons {lo hi : Nat} (h : lo < hi) : numbers lo hi = lo :: numbers (lo + 1) hi := by
  rw [← numbers_append (Nat.le_succ lo) h]
  simp [numbers]

theorem filterMap_numbers {f : Nat → Option Nat} {a b n : Nat}
    (h : ∀ i < n, f (a + i) = some (b + i)) :
    (numbers a (a + n)).filterMap f = numbers b (b + n) := by
  induction n generalizing a b with
  | zero => simp
  | succ n ih =>
    have hrest : ∀ i < n, f (a + 1 + i) = some (b + 1 + i) := fun i hi => by
      rw [Nat.add_assoc, Nat.add_comm 1, h (i + 1) (by omega), Nat.add_assoc, Nat.add_comm 1]
    have h0 : f a = some b := h 0 (Nat.succ_pos n)
    have ih := ih hrest
    rw [Nat.add_assoc, Nat.add_comm 1, Nat.add_assoc, Nat.add_comm 1] at ih
    rw [numbers_cons (by omega), List.filterMap_cons_some h0, ih,
      ← numbers_cons (by omega : b < b + (n + 1))]

theorem flatMap_numbers {f : Nat → List Nat} {a b n : Nat} (h : ∀ i < n, f (a + i) = [b + i]) :
    (numbers a (a + n)).flatMap f = numbers b (b + n) := by
  induction n generalizing a b with
  | zero => simp
  | succ n ih =>
    have hrest : ∀ i < n, f (a + 1 + i) = [b + 1 + i] := fun i hi => by
      rw [Nat.add_assoc, Nat.add_comm 1, h (i + 1) (by omega), Nat.add_assoc, Nat.add_comm 1]
    have h0 : f a = [b] := h 0 (Nat.succ_pos n)
    have ih := ih hrest
    rw [Nat.add_assoc, Nat.add_comm 1, Nat.add_assoc, Nat.add_comm 1] at ih
    rw [numbers_cons (by omega), List.flatMap_cons, h0, ih,
      numbers_cons (by omega : b < b + (n + 1))]
    rfl

/-- The body that a target is, if it is one of the arena. -/
def NodeTarget.body? : NodeTarget → Option Nat
  | .own => none
  | .inline body => some body
  | .named _ => none

namespace Arena

/-- The substitutions of body `b`, or none when there is no such body. -/
def within (arena : Arena) (b : Nat) : List Nat :=
  (arena.bodies[b]?.map BodyEntry.substitutions).getD []

/-- The body that node `i` is filled into, when that is one of the arena and not a template of
another name. -/
def inlined (arena : Arena) (i : Nat) : Option Nat :=
  arena.nodes[i]?.bind fun node => node.target.body?

variable {arena : Arena} {c d : Counts} {lo hi start more : Nat} {raw : Text} {last : NodeTarget}
  {subs : List Nat} {visits : List Visit}

theorem within_of_getElem? {b : Nat} {entry : BodyEntry} (h : arena.bodies[b]? = some entry) :
    arena.within b = entry.substitutions := by
  rw [within, h]
  rfl

/-! ### The links of a substitution -/

namespace ChainAt

theorem within_link (h : arena.ChainAt c start raw more last) {i : Nat} (hi : i < more) :
    arena.within (c.bodies + i) = [c.nodes + 1 + i] := by
  rw [within_of_getElem? (h.between i hi), Nat.add_right_comm]

theorem inlined_link (h : arena.ChainAt c start raw more last) {i : Nat} (hi : i < more) :
    arena.inlined (c.nodes + i) = some (c.bodies + i) := by
  obtain ⟨node, hnode, -, htarget⟩ := h.link i (Nat.le_of_lt hi)
  rw [if_pos hi] at htarget
  rw [inlined, hnode, Option.bind_some, htarget]
  rfl

theorem inlined_last (h : arena.ChainAt c start raw more last) :
    arena.inlined (c.nodes + more) = last.body? := by
  obtain ⟨node, hnode, -, htarget⟩ := h.link more (Nat.le_refl more)
  rw [if_neg (Nat.lt_irrefl more)] at htarget
  rw [inlined, hnode, Option.bind_some, htarget]

theorem alternates_between (h : arena.ChainAt c start raw more last) {b : Nat} {entry : BodyEntry}
    (hlo : c.bodies ≤ b) (hhi : b < c.bodies + more) (hb : arena.bodies[b]? = some entry) :
    entry.Alternates := by
  obtain ⟨k, rfl⟩ := Nat.exists_eq_add_of_le hlo
  rw [h.between k (by omega), Option.some.injEq] at hb
  exact hb ▸ .inl rfl

/-- When the target can only be the body after those between the links, link `i` is filled into the
body `i` after the first one. -/
theorem eq_of_inlined (h : arena.ChainAt c start raw more last)
    (hlast : ∀ b, last.body? = some b → b = c.bodies + more) {i b : Nat} (hi : i ≤ more)
    (hb : arena.inlined (c.nodes + i) = some b) : b = c.bodies + i := by
  rcases Nat.eq_or_lt_of_le hi with rfl | hlt
  · rw [h.inlined_last] at hb
    exact hlast b hb
  · rw [h.inlined_link hlt] at hb
    exact (Option.some.inj hb).symm

/-- Each link is in a body before the one that it is filled into, so that going down leads to larger
numbers. -/
theorem lt_of_within (h : arena.ChainAt c start raw more last)
    (hlast : ∀ b, last.body? = some b → b = c.bodies + more) {b b' i : Nat} (hlo : c.bodies ≤ b)
    (hhi : b < c.bodies + more) (hi : i ∈ arena.within b) (hb' : arena.inlined i = some b') :
    b < b' := by
  obtain ⟨k, rfl⟩ := Nat.exists_eq_add_of_le hlo
  rw [h.within_link (by omega), List.mem_singleton, Nat.add_assoc] at hi
  rw [hi] at hb'
  have heq := h.eq_of_inlined hlast (by omega) hb'
  omega

/-- A link before the last one is filled into the link after it and into nothing else. -/
theorem eq_of_child (h : arena.ChainAt c start raw more last) {b i j : Nat} (hi : i < more)
    (hb : arena.inlined (c.nodes + i) = some b) (hj : j ∈ arena.within b) :
    j = c.nodes + 1 + i := by
  rw [h.inlined_link hi, Option.some.injEq] at hb
  rwa [← hb, h.within_link hi, List.mem_singleton] at hj

/-- The bodies between the links hold the links after the first one, each of them one. -/
theorem flatMap_within (h : arena.ChainAt c start raw more last) :
    (numbers c.bodies (c.bodies + more)).flatMap arena.within =
      numbers (c.nodes + 1) (c.nodes + 1 + more) :=
  flatMap_numbers fun _ hi => h.within_link hi

/-- The links are filled into the bodies between them, and the last one into the target, each body
once. -/
theorem filterMap_inlined (h : arena.ChainAt c start raw more last) :
    (numbers c.nodes (c.nodes + more + 1)).filterMap arena.inlined =
      numbers c.bodies (c.bodies + more) ++ last.body?.toList := by
  have hlast : numbers (c.nodes + more) (c.nodes + more + 1) = [c.nodes + more] := by
    rw [numbers_cons (Nat.lt_succ_self _), numbers_self]
  rw [← numbers_append (Nat.le_add_right c.nodes more) (Nat.le_succ _), List.filterMap_append,
    filterMap_numbers fun _ hi => h.inlined_link hi, hlast, List.filterMap_cons, h.inlined_last]
  cases last.body? <;> rfl

end ChainAt

theorem body?_eq_none (h : ∀ b, last ≠ .inline b) : last.body? = none := by
  cases last with
  | own => rfl
  | inline b => exact absurd rfl (h b)
  | named name => rfl

/-! ### Regions -/

namespace Region

/-- Later counts are no smaller, and neither is the end of a stretch than its start. -/
theorem le (h : arena.Region lo hi c d subs visits) :
    lo ≤ hi ∧ c.nodes ≤ d.nodes ∧ c.bodies ≤ d.bodies ∧ c.shared ≤ d.shared := by
  induction h with
  | nil hle => exact ⟨hle, Nat.le_refl _, Nat.le_refl _, Nat.le_refl _⟩
  | leaf hlo _ _ _ ih =>
    simp only at ih
    omega
  | inline hlo _ _ _ _ _ ihinner ih =>
    simp only at ihinner
    omega

/-- The nodes of a region are filled into its bodies, in order, so that each body has one node that
is filled into it. -/
theorem filterMap_inlined (h : arena.Region lo hi c d subs visits) :
    (numbers c.nodes d.nodes).filterMap arena.inlined = numbers c.bodies d.bodies := by
  induction h with
  | nil => simp
  | @leaf _ _ _ more _ _ c d _ _ _ hchain hlast hrest ih =>
    obtain ⟨-, hnodes, hbodies, -⟩ := hrest.le
    have hchain := hchain.filterMap_inlined
    rw [body?_eq_none hlast, Option.toList, List.append_nil] at hchain
    rw [← numbers_append (by omega : c.nodes ≤ c.nodes + more + 1) hnodes, List.filterMap_append,
      hchain, ih, numbers_append (Nat.le_add_right c.bodies more) hbodies]
  | @inline _ _ _ more _ _ c mid d _ _ _ _ hchain _ _ hinner hrest ihinner ih =>
    obtain ⟨-, hnodes, hbodies, -⟩ := hrest.le
    obtain ⟨-, hnodes', hbodies', -⟩ := hinner.le
    rw [numbers_three (by omega : c.nodes ≤ c.nodes + more + 1) hnodes' hnodes,
      numbers_three (Nat.le_add_right c.bodies more) (Nat.le_of_lt hbodies') hbodies,
      numbers_cons hbodies', List.filterMap_append, List.filterMap_append,
      hchain.filterMap_inlined, ihinner, ih]
    simp [NodeTarget.body?]

/-- The nodes of a region are those that it starts with and those in its bodies, each exactly
once. -/
theorem perm_within (h : arena.Region lo hi c d subs visits) :
    (subs ++ (numbers c.bodies d.bodies).flatMap arena.within).Perm (numbers c.nodes d.nodes) := by
  induction h with
  | nil => simp
  | @leaf _ _ _ more _ _ c d subs _ _ hchain _ hrest ih =>
    obtain ⟨-, hnodes, hbodies, -⟩ := hrest.le
    simp only at hnodes hbodies
    have hlinks := hchain.flatMap_within
    rw [Nat.add_right_comm] at hlinks
    rw [numbers_cons (by omega : c.nodes < d.nodes),
      ← numbers_append (by omega : c.nodes + 1 ≤ c.nodes + more + 1) hnodes,
      ← numbers_append (Nat.le_add_right c.bodies more) hbodies, List.flatMap_append, hlinks]
    refine .cons c.nodes ?_
    exact (List.perm_append_comm_assoc _ _ _).trans (ih.append_left _)
  | @inline _ _ _ more _ entry c mid d subs _ _ _ hchain hbody _ hinner hrest ihinner ih =>
    obtain ⟨-, hnodes, hbodies, -⟩ := hrest.le
    obtain ⟨-, hnodes', hbodies', -⟩ := hinner.le
    simp only at hnodes' hbodies'
    have hlinks := hchain.flatMap_within
    rw [Nat.add_right_comm] at hlinks
    rw [numbers_cons (by omega : c.nodes < d.nodes),
      numbers_three (by omega : c.nodes + 1 ≤ c.nodes + more + 1) hnodes' hnodes,
      numbers_three (Nat.le_add_right c.bodies more) (Nat.le_of_lt hbodies') hbodies,
      numbers_cons hbodies', List.flatMap_append, List.flatMap_append, List.flatMap_cons,
      within_of_getElem? hbody, hlinks]
    refine .cons c.nodes ?_
    -- The own substitutions come before the links in the list, but last in the numbers.
    refine (List.perm_append_comm_assoc _ _ _).trans (.append_left _ ?_)
    exact (List.perm_append_comm_assoc _ _ _).trans (ihinner.append ih)

theorem lt_of_mem_subs (h : arena.Region lo hi c d subs visits) {i : Nat} (hi : i ∈ subs) :
    c.nodes ≤ i ∧ i < d.nodes :=
  mem_numbers.1 (h.perm_within.subset (List.mem_append_left _ hi))

theorem lt_of_inlined (h : arena.Region lo hi c d subs visits) {i b : Nat} (hlo : c.nodes ≤ i)
    (hhi : i < d.nodes) (hb : arena.inlined i = some b) : c.bodies ≤ b ∧ b < d.bodies := by
  rw [← mem_numbers, ← h.filterMap_inlined]
  exact List.mem_filterMap.2 ⟨i, mem_numbers.2 ⟨hlo, hhi⟩, hb⟩

/-- A body that holds a node comes before the one that the node is filled into, at every depth of
nesting. -/
theorem lt_of_within (h : arena.Region lo hi c d subs visits) {b b' i : Nat} (hlo : c.bodies ≤ b)
    (hhi : b < d.bodies) (hi : i ∈ arena.within b) (hb' : arena.inlined i = some b') : b < b' := by
  induction h with
  | nil => omega
  | @leaf _ _ _ more _ last c _ _ _ _ hchain hlast _ ih =>
    rcases Nat.lt_or_ge b (c.bodies + more) with hlt | hge
    · exact hchain.lt_of_within (by simp [body?_eq_none hlast]) hlo hlt hi hb'
    · exact ih hge hhi
  | @inline _ _ _ more _ entry c mid d subs _ _ _ hchain hbody _ hinner hrest ihinner ih =>
    rcases Nat.lt_or_ge b (c.bodies + more) with hlt | hge
    · exact hchain.lt_of_within (by simp [NodeTarget.body?]) hlo hlt hi hb'
    rcases Nat.eq_or_lt_of_le hge with rfl | hgt
    · rw [within_of_getElem? hbody] at hi
      obtain ⟨hlow, hhigh⟩ := hinner.lt_of_mem_subs hi
      exact (hinner.lt_of_inlined hlow hhigh hb').1
    rcases Nat.lt_or_ge b mid.bodies with hlt | hge
    · exact ihinner hgt hlt
    · exact ih hge hhi

/-- What a node is filled into comes after it in its region, so that there are no circles. -/
theorem lt_of_child (h : arena.Region lo hi c d subs visits) {b i j : Nat} (hlo : c.nodes ≤ i)
    (hhi : i < d.nodes) (hb : arena.inlined i = some b) (hj : j ∈ arena.within b) :
    i < j ∧ j < d.nodes := by
  -- The node is a link of the first substitution, or in its inline template, or after it.
  induction h with
  | nil => omega
  | @leaf _ _ _ more _ last c d _ _ _ hchain hlast hrest ih =>
    obtain ⟨-, hnodes, -, -⟩ := hrest.le
    simp only at hnodes
    rcases Nat.lt_or_ge i (c.nodes + more + 1) with hlt | hge
    · obtain ⟨k, rfl⟩ := Nat.exists_eq_add_of_le hlo
      have hk : k ≠ more := by
        rintro rfl
        rw [hchain.inlined_last, body?_eq_none hlast] at hb
        cases hb
      have heq := hchain.eq_of_child (by omega) hb hj
      omega
    · exact ih hge hhi
  | @inline _ _ _ more _ entry c mid d subs _ _ _ hchain hbody _ hinner hrest ihinner ih =>
    obtain ⟨-, hnodes, -, -⟩ := hrest.le
    obtain ⟨-, hnodes', -, -⟩ := hinner.le
    simp only at hnodes'
    rcases Nat.lt_or_ge i (c.nodes + more + 1) with hlt | hge
    · obtain ⟨k, rfl⟩ := Nat.exists_eq_add_of_le hlo
      rcases Nat.eq_or_lt_of_le (by omega : k ≤ more) with rfl | hk
      · rw [hchain.inlined_last, NodeTarget.body?, Option.some.injEq] at hb
        rw [← hb, within_of_getElem? hbody] at hj
        obtain ⟨hlow, hhigh⟩ := hinner.lt_of_mem_subs hj
        simp only at hlow
        omega
      · have heq := hchain.eq_of_child hk hb hj
        omega
    rcases Nat.lt_or_ge i mid.nodes with hlt | hge'
    · obtain ⟨hlow, hhigh⟩ := ihinner hge hlt
      omega
    · exact ih hge' hhi

theorem alternates (h : arena.Region lo hi c d subs visits) {b : Nat} {entry : BodyEntry}
    (hlo : c.bodies ≤ b) (hhi : b < d.bodies) (hb : arena.bodies[b]? = some entry) :
    entry.Alternates := by
  induction h with
  | nil => omega
  | @leaf _ _ _ more _ _ c _ _ _ _ hchain _ _ ih =>
    rcases Nat.lt_or_ge b (c.bodies + more) with hlt | hge
    · exact hchain.alternates_between hlo hlt hb
    · exact ih hge hhi
  | @inline _ _ _ more _ found c mid _ _ _ _ _ hchain hbody halt _ _ ihinner ih =>
    rcases Nat.lt_or_ge b (c.bodies + more) with hlt | hge
    · exact hchain.alternates_between hlo hlt hb
    rcases Nat.eq_or_lt_of_le hge with rfl | hgt
    · rw [hbody, Option.some.injEq] at hb
      exact hb ▸ halt
    rcases Nat.lt_or_ge b mid.bodies with hlt | hge
    · exact ihinner hgt hlt
    · exact ih hge hhi

end Region

end Arena

end Stencil
