import Stencil.Proofs.Likeness

/-!
# The templates that data carries

The own templates of a provider are those at any depth of it. All that a fill meets in the data,
below wrappers, in sequences and under names, carries some of these templates and no others.
-/
namespace Stencil

mutual

/-- The own templates anywhere in the provider, at its top, under wrappers and further in. -/
def Provider.owns : Provider → List OwnTemplate
  | .scalar _ => []
  | .sequence items => ownsItems items
  | .map own entries => own.toList ++ ownsEntries entries
  | .absent => []
  | .present inner => inner.owns
  | .pointer inner => inner.owns
  | .callback inner => inner.owns
  | .delegate own inner => own.toList ++ inner.owns
  | .counter _ => []
  | .json _ => []

def Provider.ownsItems : List Provider → List OwnTemplate
  | [] => []
  | item :: rest => item.owns ++ ownsItems rest

def Provider.ownsEntries : List (Text × Provider) → List OwnTemplate
  | [] => []
  | (_, value) :: rest => value.owns ++ ownsEntries rest

end

namespace Provider

theorem owns_subset_of_mem {items : List Provider} {item : Provider} (h : item ∈ items) :
    item.owns ⊆ ownsItems items := by
  induction items with
  | nil => cases h
  | cons first rest ih =>
    intro own hown
    cases h with
    | head => exact List.mem_append_left _ hown
    | tail _ h => exact List.mem_append_right _ (ih h hown)

theorem owns_subset_of_lookup {entries : List (Text × Provider)} {name : Text} {value : Provider}
    (h : entries.lookup name = some value) : value.owns ⊆ ownsEntries entries := by
  induction entries with
  | nil => cases h
  | cons entry rest ih =>
    intro own hown
    obtain ⟨key, first⟩ := entry
    rw [List.lookup_cons] at h
    split at h
    · cases h
      exact List.mem_append_left _ hown
    · exact List.mem_append_right _ (ih h hown)

theorem ownsItems_json (values : List JsonValue) : ownsItems (values.map .json) = [] := by
  induction values with
  | nil => rfl
  | cons value rest ih => exact ih

theorem ownsEntries_json (members : List (Text × JsonValue)) :
    ownsEntries (members.map fun member => (member.1, .json member.2)) = [] := by
  induction members with
  | nil => rfl
  | cons member rest ih => exact ih

/-- JSON values carry no templates, and neither does what is under them. -/
theorem owns_core {value : JsonValue} {core : Core} (h : value.core = some core) :
    core.toProvider.owns = [] := by
  cases value with
  | null => cases h
  | bool value | integer value | double value | string value => cases h; rfl
  | array items => cases h; exact ownsItems_json items
  | object members => cases h; exact ownsEntries_json members

end Provider

/-- The own templates of a core and the one on the way to it are among the given ones, so that
filling with it brings no others. -/
structure Unwrapped.OwnsIn (owns : List OwnTemplate) (u : Unwrapped) : Prop where
  own : ∀ own ∈ u.own, own ∈ owns
  core : u.core.toProvider.owns ⊆ owns

theorem Unwrapped.ownsIn_ofCore {core : Core} {owns : List OwnTemplate}
    (h : core.toProvider.owns = owns) : (ofCore core).OwnsIn owns := by
  subst h
  refine ⟨fun own hown => ?_, fun _ h => h⟩
  cases core with
  | scalar text => cases hown
  | sequence items => cases hown
  | map inner entries => exact List.mem_append_left _ (Option.mem_toList.2 hown)

/-- Taking the wrappers off finds no other templates than those that the provider carries. -/
theorem Provider.ownsIn_unwrap (v : Provider) (t : Tally) :
    ∀ u ∈ (v.unwrap t).1, u.OwnsIn v.owns := by
  fun_induction unwrap t v with
  | case1 text | case2 items | case3 own entries =>
    intro u hu
    cases hu
    exact Unwrapped.ownsIn_ofCore rfl
  | case4 => exact fun u hu => by cases hu
  | case5 inner ih | case6 inner ih | case7 inner ih => exact ih
  | case8 own inner found tally hinner ih =>
    rw [hinner] at ih
    intro u hu
    obtain ⟨u', hu', rfl⟩ := Option.map_eq_some_iff.1 hu
    obtain ⟨hown, hcore⟩ := ih u' hu'
    refine ⟨fun other hother => ?_, fun _ h => List.mem_append_right _ (hcore h)⟩
    cases own with
    | none => exact hown other hother
    | some own =>
      cases hother
      exact List.mem_append_left _ List.mem_cons_self
  | case9 id =>
    intro u hu
    cases hu
    exact Unwrapped.ownsIn_ofCore rfl
  | case10 value =>
    intro u hu
    obtain ⟨core, hcore, rfl⟩ := Option.map_eq_some_iff.1 hu
    exact Unwrapped.ownsIn_ofCore (owns_core hcore)

theorem Core.owns_subset_of_lookup {core : Core} {name : Text} {value : Provider}
    (h : core.lookup name = some value) : value.owns ⊆ core.toProvider.owns := by
  cases name with
  | nil =>
    cases h
    exact fun _ hown => hown
  | cons c name =>
    cases core with
    | scalar text => cases h
    | sequence items => cases h
    | map own entries =>
      exact fun _ hown => List.mem_append_right _ (Provider.owns_subset_of_lookup h hown)

end Stencil
