import Mathlib.Tactic.ByContra
import Mathlib.Tactic.SplitIfs
import Stencil.Trace

/-!
# Names in scopes

A name is looked up scope by scope, from the one on that its dots lead to. The value that it stands
for is told here by the numbers of the scopes: the empty name stands for the first scope itself, and
any other one for an entry of the first map that has it.
-/
namespace Stencil

namespace Scopes

variable {scopes : Scopes} {dots i : Nat} {name : Text} {v : Provider}

/-- With this many dots before it, a name stands for this value, and scope `i` gives it. The empty
name stands for the scope that the dots lead to, and any other one for an entry of the first map
that has it from there on. -/
inductive Resolves (scopes : Scopes) (dots : Nat) : Text → Nat → Provider → Prop
  | self {core : Core} : scopes[max dots 1 - 1]? = some core →
    Resolves scopes dots [] (max dots 1 - 1) core.toProvider
  | entry {name : Text} {i : Nat} {own : Option OwnTemplate} {entries : List (Text × Provider)}
      {v : Provider} : name ≠ [] → max dots 1 - 1 ≤ i → scopes[i]? = some (.map own entries) →
    entries.lookup name = some v →
    (∀ j own entries, max dots 1 - 1 ≤ j → j < i → scopes[j]? = some (.map own entries) →
      entries.lookup name = none) → Resolves scopes dots name i v

theorem find?_eq_some_iff :
    scopes.find? name = some (v, i) ↔
      (∃ core, scopes[i]? = some core ∧ core.lookup name = some v) ∧
        ∀ j core, j < i → scopes[j]? = some core → core.lookup name = none := by
  induction scopes generalizing i with
  | nil => simp [find?]
  | cons scope outer ih =>
    rw [find?]
    cases hlookup : scope.lookup name with
    | some value =>
      constructor
      · intro h
        cases h
        exact ⟨⟨scope, rfl, hlookup⟩, fun j core hj => absurd hj (Nat.not_lt_zero j)⟩
      · rintro ⟨⟨core, hcore, hv⟩, hbefore⟩
        cases i with
        | zero =>
          obtain rfl : scope = core := Option.some.inj hcore
          simp [Option.some.inj (hlookup.symm.trans hv)]
        | succ i =>
          have hnone := hbefore 0 scope (Nat.succ_pos i) rfl
          cases hlookup.symm.trans hnone
    | none =>
      constructor
      · intro h
        obtain ⟨⟨value, depth⟩, hfind, heq⟩ := Option.map_eq_some_iff.1 h
        cases heq
        obtain ⟨hat, hbefore⟩ := ih.1 hfind
        refine ⟨hat, fun j core hj hcore => ?_⟩
        cases j with
        | zero =>
          cases hcore
          exact hlookup
        | succ j => exact hbefore j core (Nat.lt_of_succ_lt_succ hj) hcore
      · rintro ⟨⟨core, hcore, hv⟩, hbefore⟩
        cases i with
        | zero =>
          obtain rfl : scope = core := Option.some.inj hcore
          cases hlookup.symm.trans hv
        | succ i =>
          have hfind := ih.2 ⟨⟨core, hcore, hv⟩, fun j core' hj hcore' =>
            hbefore (j + 1) core' (Nat.succ_lt_succ hj) hcore'⟩
          rw [hfind]
          rfl

theorem lookup_eq_some_iff {core : Core} (hname : name ≠ []) :
    core.lookup name = some v ↔
      ∃ own entries, core = .map own entries ∧ entries.lookup name = some v := by
  obtain ⟨c, rest, rfl⟩ := List.exists_cons_of_ne_nil hname
  constructor
  · intro h
    cases core with
    | scalar text | sequence items => cases h
    | map own entries => exact ⟨own, entries, rfl, h⟩
  · rintro ⟨own, entries, rfl, h⟩
    exact h

theorem find?_rewind_eq_some_iff {passed : Nat} :
    (scopes.rewind dots).find? name = some (v, passed) ↔
      (∃ core, scopes[dots - 1 + passed]? = some core ∧ core.lookup name = some v) ∧
        ∀ j core, j < passed → scopes[dots - 1 + j]? = some core → core.lookup name = none := by
  simp only [find?_eq_some_iff, rewind, List.getElem?_drop]

/-- The empty name is known to the first scope that is asked, so that no scope is passed over. -/
theorem passed_eq_zero {passed : Nat} (h : (scopes.rewind dots).find? [] = some (v, passed)) :
    passed = 0 := by
  cases hscopes : scopes.rewind dots with
  | nil =>
    rw [hscopes] at h
    cases h
  | cons scope outer =>
    rw [hscopes] at h
    cases h
    rfl

/-- Looking a name up scope by scope finds what it stands for, and nothing if it stands for
nothing. -/
theorem resolves_iff :
    scopes.Resolves dots name i v ↔
      ∃ passed, (scopes.rewind dots).find? name = some (v, passed) ∧ i = dots - 1 + passed := by
  have hfirst : max dots 1 - 1 = dots - 1 := by omega
  constructor
  · intro h
    cases h with
    | self hcore =>
      rw [hfirst] at hcore ⊢
      exact ⟨0, find?_rewind_eq_some_iff.2 ⟨⟨_, hcore, rfl⟩, by simp⟩, rfl⟩
    | @entry _ _ own entries _ hname hle hcore hentry hbefore =>
      rw [hfirst] at hle hbefore
      obtain ⟨passed, rfl⟩ := Nat.exists_eq_add_of_le hle
      refine ⟨passed, find?_rewind_eq_some_iff.2 ⟨⟨.map own entries, hcore, ?_⟩,
        fun j core hj hat => ?_⟩, rfl⟩
      · exact (lookup_eq_some_iff hname).2 ⟨own, entries, rfl, hentry⟩
      · by_contra hsome
        obtain ⟨w, hw⟩ := Option.ne_none_iff_exists'.1 hsome
        obtain ⟨own', entries', rfl, hentry'⟩ := (lookup_eq_some_iff hname).1 hw
        have hnone := hbefore _ own' entries' (by omega) (by omega) hat
        cases hentry'.symm.trans hnone
  · rintro ⟨passed, hfind, rfl⟩
    obtain ⟨⟨core, hcore, hv⟩, hbefore⟩ := find?_rewind_eq_some_iff.1 hfind
    by_cases hname : name = []
    · subst hname
      obtain rfl := passed_eq_zero hfind
      cases hv
      rw [Nat.add_zero, ← hfirst] at hcore ⊢
      exact .self hcore
    · obtain ⟨own, entries, rfl, hentry⟩ := (lookup_eq_some_iff hname).1 hv
      refine .entry hname (by omega) hcore hentry fun j own' entries' hle hlt hj => ?_
      obtain ⟨k, rfl⟩ := Nat.exists_eq_add_of_le (hfirst ▸ hle)
      have hnone := hbefore k (.map own' entries') (by omega) hj
      obtain ⟨c, rest, rfl⟩ := List.exists_cons_of_ne_nil hname
      exact hnone

/-- The dots must not lead past the outermost scope, where no name stands for anything. -/
theorem not_resolves_of_length_le (h : scopes.length ≤ max dots 1 - 1) :
    ¬ scopes.Resolves dots name i v := by
  intro hresolves
  cases hresolves with
  | self hcore =>
    obtain ⟨hlt, -⟩ := List.getElem?_eq_some_iff.1 hcore
    omega
  | entry _ hle hcore _ _ =>
    obtain ⟨hlt, -⟩ := List.getElem?_eq_some_iff.1 hcore
    omega

end Scopes

/-- What looking up the name of a substitution gives and notes, for each of the cases that there
are. -/
structure Spot.ResolvesIn (spot : Spot) (dots : Nat) (scopes : Scopes) : Prop where
  /-- The dots lead past the outermost scope, and then the name is not resolved. -/
  beyond : scopes.length ≤ max dots 1 - 1 → ∀ i v, ¬ scopes.Resolves dots spot.name i v
  found : ∀ i v, scopes.Resolves dots spot.name i v → ∀ t,
    (resolve spot dots scopes).run t =
      ⟨.ok v, if 0 < i then [.outer spot.name i] else [], t⟩
  event : ∀ i v, scopes.Resolves dots spot.name i v → ∀ t,
    Trace.ofReport ((resolve spot dots scopes).run t) =
      if 0 < i then [.outer spot.name i] else []
  unresolved : (∀ i v, ¬ scopes.Resolves dots spot.name i v) → ∀ t,
    (resolve spot dots scopes).run t =
      ⟨.error (.failed (.substitution (spot.error .unresolved))), [], t⟩

theorem Spot.resolvesIn (spot : Spot) (dots : Nat) (scopes : Scopes) :
    spot.ResolvesIn dots scopes := by
  have hfound : ∀ i v, scopes.Resolves dots spot.name i v → ∀ t,
      (resolve spot dots scopes).run t =
        ⟨.ok v, if 0 < i then [.outer spot.name i] else [], t⟩ := by
    intro i v h t
    obtain ⟨passed, hfind, rfl⟩ := Scopes.resolves_iff.1 h
    rw [resolve, hfind]
    dsimp only
    split_ifs <;> rfl
  refine ⟨fun h i v => Scopes.not_resolves_of_length_le h, hfound, fun i v h t => ?_, fun h t => ?_⟩
  · rw [hfound i v h t]
    split_ifs <;> rfl
  · cases hfind : (scopes.rewind dots).find? spot.name with
    | none =>
      rw [resolve, hfind]
      rfl
    | some found => exact absurd (Scopes.resolves_iff.2 ⟨found.2, hfind, rfl⟩) (h _ found.1)

end Stencil
