import Stencil.Proofs.AlikeData

/-!
# Vocabularies

A template asks its data for names, refers to other templates, and brings along its own wording. A
vocabulary says which names, references and wording may occur. Two fills with the same parts are
alike as long as all the parts stay within one vocabulary for which the fills agree.
-/
namespace Stencil

/-- What stands around the text of a substitution, or between the elements. These are all texts that
a place adds by itself. -/
def Placement.wording (place : Placement) : List Text :=
  [place.leading, place.trailing, place.joining.separator]

mutual

/-- The texts that a fill of a body can write by itself: its literals and the wording of its places,
at any depth. -/
def Body.wording : Body → List Text
  | .tail literal => [literal]
  | .piece literal place action rest =>
    literal :: (place.wording ++ (action.wording ++ rest.wording))

def Action.wording : Action → List Text
  | .comment => []
  | .insert _ _ => []
  | .value _ _ target => target.wording

def Target.wording : Target → List Text
  | .own => []
  | .named _ => []
  | .inline body => body.wording
  | .link _ target => target.wording

end

@[simp] theorem Body.names_ofLink (place : Placement) (name : Text) (target : Target) :
    (Body.ofLink place name target).names = name :: target.names := by
  simp [Body.ofLink, Body.names, Action.names]

@[simp] theorem Body.references_ofLink (place : Placement) (name : Text) (target : Target) :
    (Body.ofLink place name target).references = target.references := by
  simp [Body.ofLink, Body.references, Action.references]

structure Vocabulary where
  names : Text → Prop
  references : Text → Prop
  wording : Text → Prop

/-- All names, references and wording of the body are in the vocabulary. The empty text needs no
wording. -/
structure Body.Within (V : Vocabulary) (body : Body) : Prop where
  names : ∀ name ∈ body.names, V.names name
  references : ∀ name ∈ body.references, V.references name
  wording : ∀ text ∈ body.wording, text ≠ [] → V.wording text

/-- The same part on both sides, within a vocabulary. It may be entered on both sides then, and the
two fills are alike. -/
def PartWithin (V : Vocabulary) (part part' : Part) : Prop :=
  part = part' ∧ part.body.Within V

namespace Body.Within

variable {V : Vocabulary} {literal : Text} {place : Placement} {action : Action} {rest : Body}

theorem wording_literal (h : (Body.piece literal place action rest).Within V) (hne : literal ≠ []) :
    V.wording literal :=
  h.wording literal List.mem_cons_self hne

theorem wording_place (h : (Body.piece literal place action rest).Within V) :
    ∀ text ∈ place.wording, text ≠ [] → V.wording text :=
  fun text htext => h.wording text (List.mem_cons_of_mem _ (List.mem_append_left _ htext))

theorem after (h : (Body.piece literal place action rest).Within V) : rest.Within V where
  names name hname := h.names name (List.mem_append_right _ hname)
  references name hname := h.references name (List.mem_append_right _ hname)
  wording text htext := h.wording text
    (List.mem_cons_of_mem _ (List.mem_append_right _ (List.mem_append_right _ htext)))

/-- The inline template of a substitution. It is within the vocabulary if the body around it is. -/
theorem inline {rewind : Nat} {name : Text} {body : Body}
    (h : (Body.piece literal place (.value rewind name (.inline body)) rest).Within V) :
    body.Within V where
  names other hother := h.names other (List.mem_cons_of_mem _ (List.mem_append_left _ hother))
  references other hother := h.references other (List.mem_append_left _ hother)
  wording text htext := h.wording text
    (List.mem_cons_of_mem _ (List.mem_append_right _ (List.mem_append_left _ htext)))

/-- The next link of a dotted name stands in a place with the joining of the first one. That joining
is all the wording of the place. -/
theorem link {rewind : Nat} {name next : Text} {target : Target}
    (h : (Body.piece literal place (.value rewind name (.link next target)) rest).Within V) :
    (Body.ofLink place next target).Within V where
  names other hother := by
    rw [names_ofLink] at hother
    exact h.names other (List.mem_cons_of_mem _ (List.mem_append_left _ hother))
  references other hother := by
    rw [references_ofLink] at hother
    exact h.references other (List.mem_append_left _ hother)
  wording text htext hne := by
    have hmem : text = place.joining.separator ∨ text ∈ target.wording := by
      simpa [Body.ofLink, Body.wording, Action.wording, Placement.wording, Placement.inner, hne]
        using htext
    rcases hmem with rfl | hmem
    · exact h.wording_place _ (by simp [Placement.wording]) hne
    · exact h.wording text (List.mem_cons_of_mem _ (List.mem_append_right _
        (List.mem_append_left _ hmem))) hne

end Body.Within

section

variable {c : Comparison} {text : Text → Text → Prop} {V : Vocabulary}
  {templates templates' : TemplateMap}
  (hstop : ∀ error : SubstitutionError, error.fault ≠ .missingTemplate →
    c.stop (.failed (.substitution error)) (.failed (.substitution error)))
  (hwording : ∀ t, (t ≠ [] → V.wording t) → text t t)
  (hplace : ∀ place : Placement, (∀ t ∈ place.wording, t ≠ [] → V.wording t) →
    PlaceAlike text place place)
  (hnamed : ∀ spot name, V.references name → Filling.Alike c (PartWithin V)
    (namedPart templates spot name) (namedPart templates' spot name))

include hstop hwording hplace hnamed

/-- A body within the vocabulary is alike itself. Only what its names and references stand for may
differ between the two sides. -/
theorem bodyAlike_of_within (source : Text) : ∀ body : Body, body.Within V →
    BodyAlike c text V.names (PartWithin V) templates templates' source source body body
  | .tail literal, h => .tail (hwording literal (h.wording literal List.mem_cons_self))
  | .piece literal place action rest, h => by
    have hrest := bodyAlike_of_within source rest h.after
    refine .piece (hwording literal h.wording_literal) (hplace place h.wording_place) ?_ hrest
    have hspot : ∀ name, Spot.Alike c ⟨source, place, name⟩ ⟨source, place, name⟩ :=
      fun name fault hfault => hstop _ hfault
    cases action with
    | comment => exact .comment
    | insert rewind name =>
      exact .insert (hspot name) (hnamed _ name (h.references name List.mem_cons_self))
    | value rewind name target =>
      refine .value (h.names name List.mem_cons_self) (hspot name) ?_
      cases target with
      | own => exact Filling.alike_pure .none
      | named other =>
        have hpart := hnamed ⟨source, place, name⟩ other (h.references other List.mem_cons_self)
        exact Filling.alike_map hpart fun _ _ hpart => .some hpart
      -- An inner body is a part of its own, so the recursion does not go into it.
      | inline body => exact Filling.alike_pure (.some ⟨rfl, h.inline⟩)
      | link next target => exact Filling.alike_pure (.some ⟨rfl, h.link⟩)

end

/-! ### Data without own templates -/

theorem PlaceAlike.refl (place : Placement) : PlaceAlike Eq place place where
  wrap t t' ht := congrArg place.wrap ht
  join ts ts' hts := by
    rw [List.forall₂_eq_eq_eq] at hts
    exact congrArg place.joining.join hts

/-- Nothing but the results of two fills is compared, with `stop` for failures. Counters and notes
may be different. -/
def Comparison.results (stop : Stop → Stop → Prop) : Comparison where
  stop := stop
  notes _ _ := True
  tally := Eq
  notes_nil := trivial
  notes_append _ _ := trivial

theorem CoreAlike.and_left {text : Text → Text → Prop} {p : Provider → Prop}
    {R : Provider → Provider → Prop} {core core' : Core} (h : CoreAlike text R core core')
    (hp : ∀ items, core = .sequence items → ∀ item ∈ items, p item) :
    CoreAlike text (fun v v' => p v ∧ R v v') core core' := by
  cases h with
  | scalar ht => exact .scalar ht
  | map => exact .map
  | sequence hitems => exact .sequence ((List.forall₂_and_left _ _).2 ⟨hp _ rfl, hitems⟩)

theorem Provider.owns_item_eq_nil {items : List Provider} (h : (sequence items).owns = []) :
    ∀ item ∈ items, item.owns = [] := by
  intro item hitem
  have hsubset := owns_subset_of_mem hitem
  rw [owns] at h
  rw [h] at hsubset
  exact List.subset_nil.1 hsubset

/-- The parts of a vocabulary are filled alike with data that agrees under its names and carries no
templates. -/
def Likeness.within (V : Vocabulary) (stop : Stop → Stop → Prop)
    {templates templates' : TemplateMap} (htooDeep : stop .tooDeep .tooDeep)
    (hstop : ∀ error : SubstitutionError, error.fault ≠ .missingTemplate →
      stop (.failed (.substitution error)) (.failed (.substitution error)))
    (hnamed : ∀ spot name, V.references name → Filling.Alike (Comparison.results stop)
      (PartWithin V) (namedPart templates spot name) (namedPart templates' spot name)) :
    Likeness templates templates' where
  toComparison := Comparison.results stop
  text := Eq
  value v v' := v.owns = [] ∧ v.Alike Eq V.names v'
  core s s' := s.toProvider.owns = [] ∧ s.toProvider.Alike Eq V.names s'.toProvider
  known := V.names
  part := PartWithin V
  stop_tooDeep := htooDeep
  notes_outer _ _ := trivial
  text_nil := Text.nil_alike
  text_append := Text.append_alike
  unwrap := by
    rintro v v' ⟨howns, hv⟩ t _ rfl
    obtain ⟨hfound, htally⟩ := hv.unwrap t
    have hin := v.ownsIn_unwrap t
    rw [howns] at hin
    refine ⟨.ok ?_, trivial, htally⟩
    generalize (v.unwrap t).1 = found, (v'.unwrap t).1 = found' at hfound hin
    cases hfound with
    | none => exact .none
    | @some u u' h =>
      obtain ⟨hown, hcore⟩ := hin u rfl
      have hnone : u.core.toProvider.owns = [] := List.subset_nil.1 hcore
      have hitems : ∀ items, u.core = .sequence items → ∀ item ∈ items, item.owns = [] := by
        intro items hitems
        rw [hitems] at hnone
        exact Provider.owns_item_eq_nil hnone
      refine .some ⟨(h.core.content fun _ => rfl).and_left hitems, ⟨hnone, h.core⟩, ?_⟩
      rw [← h.own]
      cases howned : u.own with
      | none => exact .none
      | some own => exact absurd (hown own howned) List.not_mem_nil
  lookup := by
    rintro s s' ⟨howns, hs⟩ name hname
    have hlookup := hs.lookup name hname
    have howned : ∀ v ∈ s.lookup name, v.owns = [] := by
      intro v hv
      have hsubset := Core.owns_subset_of_lookup hv
      rw [howns] at hsubset
      exact List.subset_nil.1 hsubset
    generalize s.lookup name = found, s'.lookup name = found' at hlookup howned
    cases hlookup with
    | none => exact .none
    | some hv => exact .some ⟨howned _ rfl, hv⟩
  body := by
    rintro p _ ⟨rfl, hp⟩
    exact bodyAlike_of_within hstop (fun _ _ => rfl) (fun place _ => .refl place) hnamed _ _ hp

theorem Template.fillWithin_of_compile {template : Template} {compiled : Compiled}
    (h : template.compile = .ok compiled) (limit : Nat) (templates : TemplateMap)
    (data : Provider) :
    template.fillWithin limit templates data = fillRoot templates limit compiled data := by
  rw [fillWithin, h]
  rfl

end Stencil
