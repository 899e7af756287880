import Stencil.Proofs.Resemblance

/-!
# Data without counters

A fill of data without counters leaves the counters alone, so that its outcome does not show
whether other fills came before it.
-/
namespace Stencil

mutual

/-- There is no counter anywhere in the provider, so that it is the same whenever it is asked. -/
def Provider.counterFree : Provider → Bool
  | .scalar _ => true
  | .sequence items => counterFreeItems items
  | .map _ entries => counterFreeEntries entries
  | .absent => true
  | .present inner => inner.counterFree
  | .pointer inner => inner.counterFree
  | .callback inner => inner.counterFree
  | .delegate _ inner => inner.counterFree
  | .counter _ => false
  | .json _ => true

def Provider.counterFreeItems : List Provider → Bool
  | [] => true
  | item :: rest => item.counterFree && counterFreeItems rest

def Provider.counterFreeEntries : List (Text × Provider) → Bool
  | [] => true
  | (_, value) :: rest => value.counterFree && counterFreeEntries rest

end

namespace Provider

theorem counterFreeItems_iff (items : List Provider) :
    counterFreeItems items = true ↔ ∀ item ∈ items, item.counterFree = true := by
  induction items with
  | nil => simp [counterFreeItems]
  | cons item rest ih => simp [counterFreeItems, ih]

theorem counterFree_of_lookup {entries : List (Text × Provider)} {name : Text} {value : Provider}
    (h : counterFreeEntries entries = true) (hvalue : entries.lookup name = some value) :
    value.counterFree = true := by
  induction entries with
  | nil => simp at hvalue
  | cons entry rest ih =>
    obtain ⟨key, first⟩ := entry
    simp only [counterFreeEntries, Bool.and_eq_true] at h
    rw [List.lookup_cons] at hvalue
    split at hvalue
    · cases hvalue
      exact h.1
    · exact ih h.2 hvalue

theorem counterFree_json (items : List JsonValue) :
    counterFreeItems (items.map .json) = true := by
  rw [counterFreeItems_iff]
  intro item hitem
  obtain ⟨value, -, rfl⟩ := List.mem_map.1 hitem
  rfl

theorem counterFree_members (members : List (Text × JsonValue)) :
    counterFreeEntries (members.map fun member => (member.1, .json member.2)) = true := by
  induction members with
  | nil => rfl
  | cons member rest ih => exact ih

theorem counterFree_core {value : JsonValue} {core : Core} (h : value.core = some core) :
    core.toProvider.counterFree = true := by
  cases value with
  | null => cases h
  | bool value | integer value | double value | string value => cases h; rfl
  | array items => cases h; exact counterFree_json items
  | object members => cases h; exact counterFree_members members

/-- Taking the wrappers off leaves the counters alone and finds no new ones in what comes out. -/
theorem unwrap_of_counterFree {v : Provider} (h : v.counterFree = true) (t : Tally) :
    (v.unwrap t).2 = t ∧ ∀ u ∈ (v.unwrap t).1, u.core.toProvider.counterFree = true := by
  fun_induction unwrap t v with
  | case1 text | case2 items | case3 own entries =>
    refine ⟨rfl, fun u hu => ?_⟩
    cases hu
    exact h
  | case4 => exact ⟨rfl, fun u hu => by cases hu⟩
  | case5 inner ih | case6 inner ih | case7 inner ih => exact ih h
  | case8 own inner found tally hinner ih =>
    obtain ⟨htally, hfound⟩ := ih h
    rw [hinner] at htally hfound
    refine ⟨htally, fun u hu => ?_⟩
    obtain ⟨u', hu', rfl⟩ := Option.map_eq_some_iff.1 hu
    exact hfound u' hu'
  | case9 id => cases h
  | case10 value =>
    refine ⟨rfl, fun u hu => ?_⟩
    obtain ⟨core, hcore, rfl⟩ := Option.map_eq_some_iff.1 hu
    exact counterFree_core hcore

/-- Without counters the same is found whenever the wrappers are taken off, however often that was
done before. -/
theorem unwrap_fst_of_counterFree {v : Provider} (h : v.counterFree = true) (t t' : Tally) :
    (v.unwrap t).1 = (v.unwrap t').1 := by
  fun_induction unwrap t v with
  | case1 | case2 | case3 | case4 | case10 => rfl
  | case5 inner ih | case6 inner ih | case7 inner ih => exact ih h
  | case8 own inner found tally hinner ih =>
    rw [hinner] at ih
    simp only [unwrap, ← ih h]
  | case9 id => cases h

end Provider

theorem Core.counterFree_lookup {core : Core} (h : core.toProvider.counterFree = true) {name : Text}
    {value : Provider} (hvalue : core.lookup name = some value) : value.counterFree = true := by
  cases name with
  | nil =>
    cases hvalue
    exact h
  | cons c name =>
    cases core with
    | scalar text => cases hvalue
    | sequence items => cases hvalue
    | map own entries => exact Provider.counterFree_of_lookup h hvalue

/-- The counters stand as at the start on both sides, and so at every point of a fill. -/
def Comparison.calm (start : Tally) : Comparison :=
  { Comparison.exact with tally t t' := t = start ∧ t' = start }

theorem Comparison.calm_through (start : Tally) : (Comparison.calm start).Through id where
  stop := exact_through.stop
  notes := exact_through.notes

/-- The same data twice, without counters: what two fills are compared with that differ only in
their templates. -/
def Scenery.counterFree (start : Tally) : Scenery (Comparison.calm start) where
  value v v' := v = v' ∧ v.counterFree = true
  core s s' := s = s' ∧ s.toProvider.counterFree = true
  unwrap := by
    rintro v _ ⟨rfl, hv⟩ t t' ⟨ht, ht'⟩
    rw [ht, ht']
    obtain ⟨htally, hfound⟩ := Provider.unwrap_of_counterFree hv start
    refine ⟨.ok ?_, rfl, htally, htally⟩
    cases hu : (v.unwrap start).1 with
    | none => exact .none
    | some u =>
      have hcore := hfound u hu
      refine .some ⟨?_, ⟨rfl, hcore⟩, rfl⟩
      cases hc : u.core with
      | scalar text => exact .scalar rfl
      | map own entries => exact .map
      | sequence items =>
        rw [hc] at hcore
        have hitems := (Provider.counterFreeItems_iff items).1 hcore
        exact .sequence (List.forall₂_same.2 fun item hitem => ⟨rfl, hitems item hitem⟩)
  lookup := by
    rintro s _ ⟨rfl, hs⟩ name
    cases hv : s.lookup name with
    | none => exact .none
    | some v => exact .some ⟨rfl, Core.counterFree_lookup hs hv⟩

/-- A fill of data without counters leaves the counters as they are, whether it gives a text or
fails. -/
theorem tally_fillRoot {data : Provider} (h : data.counterFree = true) (templates : TemplateMap)
    (limit : Nat) (compiled : Compiled) (t : Tally) :
    ((fillRoot templates limit compiled data).run t).tally = t := by
  let L := Likeness.ofScenery (Comparison.calm_through t) templates (Scenery.counterFree t)
  have hroot := L.fillRoot_alike limit (PartResembles.refl compiled.part) rfl ⟨rfl, h⟩
  exact (hroot t t ⟨rfl, rfl⟩).tally.1

end Stencil
