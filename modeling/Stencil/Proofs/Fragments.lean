import Stencil.Proofs.Vocabulary

/-!
# Outputs in fragments

The scalars of a provider stand at positions, and providers of the same build have scalars at the
same positions. Two outputs are woven when they are put together of the same fragments, each of them
either wording of a template or the whole text of the scalar at a position, read in either provider.
-/
namespace Stencil

/-! ### Positions -/

/-- From a sequence to an element, or from a map to a value. Several of them in a row are a position
in the data. -/
inductive Branch
  | item (i : Nat)
  | entry (name : Text)
deriving DecidableEq

def Core.follow : Branch → Core → Option Provider
  | .item i, .sequence items => items[i]?
  | .entry name, .map _ entries => entries.lookup name
  | _, _ => none

/-- What is under the wrappers, as long as there is no counter. It does not depend on when it is
asked for. -/
def Provider.core? (v : Provider) : Option Core :=
  (v.unwrap .empty).1.map Unwrapped.core

/-- What stands at a position. The last branch comes first in a path, as positions grow at their
ends. -/
def Provider.coreAt (data : Provider) : List Branch → Option Core
  | [] => data.core?
  | branch :: path => (data.coreAt path).bind fun core => (core.follow branch).bind core?

/-- The text of the scalar at a position, if there is a scalar. -/
def Provider.textAt (data : Provider) (path : List Branch) : Option Text :=
  match data.coreAt path with
  | some (.scalar text) => some text
  | _ => none

@[simp] theorem Core.core?_toProvider (core : Core) : core.toProvider.core? = some core := by
  cases core <;> rfl

theorem Core.follow_of_lookup {core : Core} {c : Char} {name : Text} {v : Provider}
    (h : core.lookup (c :: name) = some v) : core.follow (.entry (c :: name)) = some v := by
  cases core with
  | scalar text => cases h
  | sequence items => cases h
  | map own entries => exact h

theorem Provider.coreAt_cons {data v : Provider} {path : List Branch} {core : Core}
    {branch : Branch} (hcore : data.coreAt path = some core) (hv : core.follow branch = some v) :
    data.coreAt (branch :: path) = v.core? := by
  rw [coreAt, hcore, Option.bind_some, hv, Option.bind_some]

namespace Provider.Alike

variable {text : Text → Text → Prop} {core core' : Core} {v v' data data' : Provider}

theorem follow (htext : ∀ t, text t t)
    (h : Provider.Alike text (fun _ => True) core.toProvider core'.toProvider) (branch : Branch) :
    Option.Rel (Provider.Alike text fun _ => True) (core.follow branch) (core'.follow branch) := by
  have hcontent := h.content htext
  cases branch with
  | item i =>
    cases hcontent with
    | scalar _ => exact .none
    | map => exact .none
    | @sequence items items' hitems =>
      obtain ⟨hlength, hitems⟩ := List.forall₂_iff_get.1 hitems
      simp only [Core.follow]
      by_cases hi : i < items.length
      · rw [List.getElem?_eq_getElem hi, List.getElem?_eq_getElem (hlength ▸ hi)]
        exact .some (hitems i hi (hlength ▸ hi))
      · rw [List.getElem?_eq_none (by omega), List.getElem?_eq_none (by omega)]
        exact .none
  | entry name =>
    cases hcontent with
    | scalar _ => exact .none
    | sequence _ => exact .none
    | map => exact h.entries trivial

theorem core? (h : Provider.Alike text (fun _ => True) v v') :
    Option.Rel (fun core core' => Provider.Alike text (fun _ => True) core.toProvider
      core'.toProvider) v.core? v'.core? := by
  have hfound := (h.unwrap .empty).1
  unfold Provider.core?
  generalize (v.unwrap .empty).1 = found, (v'.unwrap .empty).1 = found' at hfound
  cases hfound with
  | none => exact .none
  | some hu => exact .some hu.core

/-- Data that is alike has cores that are alike at the same positions, or none on both sides. -/
theorem coreAt (htext : ∀ t, text t t) (h : Provider.Alike text (fun _ => True) data data')
    (path : List Branch) :
    Option.Rel (fun core core' => Provider.Alike text (fun _ => True) core.toProvider
      core'.toProvider) (data.coreAt path) (data'.coreAt path) := by
  induction path with
  | nil => exact h.core?
  | cons branch path ih =>
    simp only [Provider.coreAt]
    generalize data.coreAt path = found, data'.coreAt path = found' at ih
    cases ih with
    | none => exact .none
    | @some core core' hcore =>
      have hfollow := hcore.follow htext branch
      simp only [Option.bind_some]
      generalize core.follow branch = next, core'.follow branch = next' at hfollow
      cases hfollow with
      | none => exact .none
      | some hv => exact hv.core?

end Provider.Alike

/-- Scalars at the same position are both empty or both not, so that the same texts around them are
written. -/
def Provider.EmptyAlike (data data' : Provider) : Prop :=
  ∀ path s s', data.textAt path = some s → data'.textAt path = some s' → (s = [] ↔ s' = [])

theorem Provider.Alike.emptyAlike {data data' : Provider}
    (h : Provider.Alike (fun s s' => s = [] ↔ s' = []) (fun _ => True) data data') :
    data.EmptyAlike data' := by
  intro path s s' hs hs'
  have hcore := h.coreAt (fun _ => Iff.rfl) path
  unfold textAt at hs hs'
  generalize data.coreAt path = found, data'.coreAt path = found' at hcore hs hs'
  cases hcore with
  | none => cases hs
  | @some core core' hcore =>
    cases hcore.content fun _ => Iff.rfl with
    | scalar ht =>
      cases hs
      cases hs'
      exact ht
    | map => cases hs
    | sequence _ => cases hs

/-! ### Fragments -/

/-- A piece of an output: a text, or whatever stands at a position of the data. Outputs are compared
piece by piece. -/
inductive Fragment
  | fixed (text : Text)
  | scalar (path : List Branch)

namespace Fragment

def read (data : Provider) : Fragment → Text
  | .fixed text => text
  | .scalar path => (data.textAt path).getD []

/-- A fixed text comes from the wording of templates, and a position is that of a scalar in both
trees. Nothing else gets into an output. -/
def Stands (wording : Text → Prop) (data data' : Provider) : Fragment → Prop
  | .fixed text => wording text
  | .scalar path => (data.textAt path).isSome = true ∧ (data'.textAt path).isSome = true

end Fragment

/-- The texts consist of the same fragments, read in the two trees. So they differ in the scalars
only. -/
def Woven (wording : Text → Prop) (data data' : Provider) (t t' : Text) : Prop :=
  ∃ fragments : List Fragment, (∀ fragment ∈ fragments, fragment.Stands wording data data') ∧
    t = (fragments.map (Fragment.read data)).flatten ∧
    t' = (fragments.map (Fragment.read data')).flatten

namespace Woven

variable {wording : Text → Prop} {data data' : Provider} {s s' t t' : Text} {ts ts' : List Text}

theorem nil : Woven wording data data' [] [] :=
  ⟨[], by simp, rfl, rfl⟩

theorem append (hs : Woven wording data data' s s') (ht : Woven wording data data' t t') :
    Woven wording data data' (s ++ t) (s' ++ t') := by
  obtain ⟨before, hbefore, rfl, rfl⟩ := hs
  obtain ⟨after, hafter, rfl, rfl⟩ := ht
  refine ⟨before ++ after, ?_, by simp, by simp⟩
  exact List.forall_mem_append.2 ⟨hbefore, hafter⟩

theorem fixed (h : t ≠ [] → wording t) : Woven wording data data' t t := by
  by_cases hnil : t = []
  · rw [hnil]
    exact nil
  · exact ⟨[.fixed t], by simpa [Fragment.Stands] using h hnil, by simp [Fragment.read],
      by simp [Fragment.read]⟩

theorem scalar {path : List Branch} (h : data.textAt path = some t)
    (h' : data'.textAt path = some t') : Woven wording data data' t t' :=
  ⟨[.scalar path], by simp [Fragment.Stands, h, h'], by simp [Fragment.read, h],
    by simp [Fragment.read, h']⟩

theorem read_eq_nil_iff (hempty : data.EmptyAlike data') {fragment : Fragment}
    (h : fragment.Stands wording data data') :
    fragment.read data = [] ↔ fragment.read data' = [] := by
  cases fragment with
  | fixed text => rfl
  | scalar path =>
    obtain ⟨s, hs⟩ := Option.isSome_iff_exists.1 h.1
    obtain ⟨s', hs'⟩ := Option.isSome_iff_exists.1 h.2
    simpa [Fragment.read, hs, hs'] using hempty path s s' hs hs'

theorem eq_nil_iff (hempty : data.EmptyAlike data') (h : Woven wording data data' t t') :
    t = [] ↔ t' = [] := by
  obtain ⟨fragments, hstands, rfl, rfl⟩ := h
  simp only [List.flatten_eq_nil_iff, List.forall_mem_map]
  exact forall₂_congr fun fragment hmem => read_eq_nil_iff hempty (hstands fragment hmem)

theorem intercalate {separator : Text} (hseparator : separator ≠ [] → wording separator)
    (h : List.Forall₂ (Woven wording data data') ts ts') :
    Woven wording data data' (separator.intercalate ts) (separator.intercalate ts') := by
  induction h with
  | nil => exact nil
  | cons ht hrest ih =>
    cases hrest with
    | nil => simpa using ht
    | cons =>
      rw [List.intercalate_cons_cons, List.intercalate_cons_cons]
      exact (ht.append (fixed hseparator)).append ih

/-- A text is written with what stands around it, unless it is empty on both sides. Nothing is
written on one side only. -/
theorem wrap (hempty : data.EmptyAlike data') {place : Placement}
    (hplace : ∀ text ∈ place.wording, text ≠ [] → wording text)
    (ht : Woven wording data data' t t') :
    Woven wording data data' (place.wrap t) (place.wrap t') := by
  have hleading : place.leading ≠ [] → wording place.leading :=
    hplace _ (by simp [Placement.wording])
  have htrailing : place.trailing ≠ [] → wording place.trailing :=
    hplace _ (by simp [Placement.wording])
  have hnil := ht.eq_nil_iff hempty
  cases t with
  | nil =>
    rw [hnil.1 rfl]
    exact nil
  | cons c t =>
    cases t' with
    | nil => exact absurd (hnil.2 rfl) (by simp)
    | cons c' t' => exact ((fixed hleading).append ht).append (fixed htrailing)

/-- The same elements are left out on both sides because they are empty, and so the separators are
at the same places. -/
theorem join (hempty : data.EmptyAlike data') {joining : Joining}
    (hseparator : joining.separator ≠ [] → wording joining.separator)
    (hts : List.Forall₂ (Woven wording data data') ts ts') :
    Woven wording data data' (joining.join ts) (joining.join ts') := by
  have hkept : List.Forall₂ (Woven wording data data')
      (if joining.ignoreEmpty then ts.filter (!·.isEmpty) else ts)
      (if joining.ignoreEmpty then ts'.filter (!·.isEmpty) else ts') := by
    split
    · exact List.rel_filter (fun t t' ht => by simp [ht.eq_nil_iff hempty]) hts
    · exact hts
  unfold Joining.join
  generalize (if joining.ignoreEmpty then ts.filter (!·.isEmpty) else ts) = kept,
    (if joining.ignoreEmpty then ts'.filter (!·.isEmpty) else ts') = kept' at hkept
  have hlead : Woven wording data data'
      (if joining.leading && !kept.isEmpty then joining.separator else [])
      (if joining.leading && !kept'.isEmpty then joining.separator else []) := by
    have hnone : kept.isEmpty = kept'.isEmpty := by cases hkept <;> rfl
    rw [hnone]
    split
    · exact fixed hseparator
    · exact nil
  exact hlead.append (intercalate hseparator hkept)

end Woven

end Stencil
