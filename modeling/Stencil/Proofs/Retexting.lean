import Stencil.Proofs.CounterFree
import Stencil.Proofs.Fragments

/-!
# Data with other texts

A fill does not read the texts of its data. It copies them, or drops something around them when
they are empty. So when the texts of the scalars are changed, a fill fails for the same reasons and
passes over the same scopes, and its output is put together of the same fragments as long as no text
becomes empty or ceases to be.
-/
namespace Stencil

/-! ### Corresponding providers -/

/-- Providers at the same position of two trees that differ in texts. The position is kept, as
fragments of an output name it. -/
structure Counterpart (data data' v v' : Provider) : Prop where
  alike : v.Alike (fun _ _ => True) (fun _ => True) v'
  calm : v.counterFree = true
  calm' : v'.counterFree = true
  owns : v.owns ⊆ data.owns
  position : ∃ path, data.coreAt path = v.core? ∧ data'.coreAt path = v'.core?

namespace Counterpart

variable {data data' v v' : Provider} {core core' : Core}

theorem textAt {t t' : Text} (h : Counterpart data data' (.scalar t) (.scalar t')) :
    ∃ path, data.textAt path = some t ∧ data'.textAt path = some t' := by
  obtain ⟨path, hpath, hpath'⟩ := h.position
  refine ⟨path, ?_, ?_⟩
  · rw [Provider.textAt, hpath]
    rfl
  · rw [Provider.textAt, hpath']
    rfl

theorem items {items items' : List Provider}
    (h : Counterpart data data' (.sequence items) (.sequence items')) :
    List.Forall₂ (Counterpart data data') items items' := by
  obtain ⟨path, hpath, hpath'⟩ := h.position
  have hsequences : Provider.Alike (fun _ _ => True) (fun _ => True)
      (Core.sequence items).toProvider (Core.sequence items').toProvider := h.alike
  have hcalm := (Provider.counterFreeItems_iff items).1 h.calm
  have hcalm' := (Provider.counterFreeItems_iff items').1 h.calm'
  cases hsequences.content fun _ => trivial with
  | sequence halike =>
    obtain ⟨hlength, halike⟩ := List.forall₂_iff_get.1 halike
    refine List.forall₂_iff_get.2 ⟨hlength, fun i hi hi' => ⟨halike i hi hi', ?_, ?_, ?_, ?_⟩⟩
    · exact hcalm _ (List.get_mem _ _)
    · exact hcalm' _ (List.get_mem _ _)
    · exact fun own hown => h.owns (Provider.owns_subset_of_mem (List.get_mem _ _) hown)
    · exact ⟨.item i :: path, Provider.coreAt_cons hpath (List.getElem?_eq_getElem hi),
        Provider.coreAt_cons hpath' (List.getElem?_eq_getElem hi')⟩

theorem unwrap (h : Counterpart data data' v v') (t t' : Tally) :
    Option.Rel (fun u u' : Unwrapped =>
      Counterpart data data' u.core.toProvider u'.core.toProvider ∧ u.own = u'.own ∧
        ∀ own ∈ u.own, own ∈ data.owns) (v.unwrap t).1 (v'.unwrap t').1 := by
  obtain ⟨path, hpath, hpath'⟩ := h.position
  rw [Provider.unwrap_fst_of_counterFree h.calm t .empty,
    Provider.unwrap_fst_of_counterFree h.calm' t' .empty]
  have hfound := (h.alike.unwrap .empty).1
  have hcalm := (Provider.unwrap_of_counterFree h.calm .empty).2
  have hcalm' := (Provider.unwrap_of_counterFree h.calm' .empty).2
  have howns := v.ownsIn_unwrap .empty
  rw [Provider.core?] at hpath hpath'
  generalize (v.unwrap .empty).1 = found, (v'.unwrap .empty).1 = found'
    at hfound hcalm hcalm' howns hpath hpath'
  cases hfound with
  | none => exact .none
  | @some u u' hu =>
    obtain ⟨hown, hcore⟩ := howns u rfl
    have hposition : ∃ path, data.coreAt path = u.core.toProvider.core? ∧
        data'.coreAt path = u'.core.toProvider.core? :=
      ⟨path, by rw [hpath, Core.core?_toProvider]; rfl, by rw [hpath', Core.core?_toProvider]; rfl⟩
    exact .some ⟨⟨hu.core, hcalm u rfl, hcalm' u' rfl, fun _ ho => h.owns (hcore ho), hposition⟩,
      hu.own, fun own ho => h.owns (hown own ho)⟩

theorem lookup (h : Counterpart data data' core.toProvider core'.toProvider) (name : Text) :
    Option.Rel (Counterpart data data') (core.lookup name) (core'.lookup name) := by
  cases name with
  | nil => exact .some h
  | cons c name =>
    obtain ⟨path, hpath, hpath'⟩ := h.position
    rw [Core.core?_toProvider] at hpath hpath'
    have hlookup := h.alike.lookup (c :: name) trivial
    cases hv : core.lookup (c :: name) with
    | none =>
      cases hv' : core'.lookup (c :: name) with
      | none => exact .none
      | some v' => simp [hv, hv'] at hlookup
    | some v =>
      cases hv' : core'.lookup (c :: name) with
      | none => simp [hv, hv'] at hlookup
      | some v' =>
        rw [hv, hv', Option.rel_some_some] at hlookup
        refine .some ⟨hlookup, Core.counterFree_lookup h.calm hv,
          Core.counterFree_lookup h.calm' hv', ?_, ?_⟩
        · exact fun own hown => h.owns (Core.owns_subset_of_lookup hv hown)
        · exact ⟨.entry (c :: name) :: path, Provider.coreAt_cons hpath (Core.follow_of_lookup hv),
            Provider.coreAt_cons hpath' (Core.follow_of_lookup hv')⟩

end Counterpart

/-! ### Filling -/

/-- The wording of a template and of all templates that it may come to: those of the map and those
in the data, if they compile. -/
inductive Template.Wording (templates : TemplateMap) (data : Provider) (template : Template) :
    Text → Prop
  | root {compiled : Compiled} {text : Text} : template.compile = .ok compiled →
    text ∈ compiled.root.wording → Wording templates data template text
  | named {name text : Text} {other : Template} {compiled : Compiled} :
    templates.get? name = some other → other.compile = .ok compiled →
    text ∈ compiled.root.wording → Wording templates data template text
  | own {own : OwnTemplate} {compiled : Compiled} {text : Text} : own ∈ data.owns →
    own.template.compile = .ok compiled → text ∈ compiled.root.wording →
    Wording templates data template text

/-- Failures and notes are the same, while the counters are left open. -/
def Comparison.course : Comparison :=
  { Comparison.exact with tally := fun _ _ => True }

section

variable (template : Template) (templates : TemplateMap) (data data' : Provider)

/-- All names and references, but only the wording that a fill of the template may come to. -/
def Template.vocabulary : Vocabulary where
  names _ := True
  references _ := True
  wording := template.Wording templates data

/-- The output of a fill, if no text becomes empty or ceases to be. Otherwise only the course of the
fill is compared. -/
def WovenIfEmptyAlike (t t' : Text) : Prop :=
  data.EmptyAlike data' → Woven (template.Wording templates data) data data' t t'

variable {template templates data data'}

theorem Body.within_wording {body : Body}
    (h : ∀ text ∈ body.wording, template.Wording templates data text) :
    body.Within (template.vocabulary templates data) where
  names _ _ := trivial
  references _ _ := trivial
  wording text htext _ := h text htext

open Filling

theorem namedPart_within (spot : Spot) (name : Text) :
    Alike Comparison.course (PartWithin (template.vocabulary templates data))
      (namedPart templates spot name) (namedPart templates spot name) := by
  unfold namedPart
  cases hname : templates.get? name with
  | none => exact alike_stop rfl
  | some other =>
    exact rootPart_alike rfl rfl (fun _ _ => rfl)
      fun compiled hcompile => ⟨rfl, Body.within_wording fun _ h => .named hname hcompile h⟩

theorem ownPart_within {own : OwnTemplate} (hown : own ∈ data.owns) :
    Alike Comparison.course (PartWithin (template.vocabulary templates data))
      (ownPart own) (ownPart own) := by
  unfold ownPart
  exact rootPart_alike rfl rfl (fun _ _ => rfl)
    fun compiled hcompile => ⟨rfl, Body.within_wording fun _ h => .own hown hcompile h⟩

theorem Counterpart.content {core core' : Core}
    (h : Counterpart data data' core.toProvider core'.toProvider) :
    CoreAlike (WovenIfEmptyAlike template templates data data') (Counterpart data data')
      core core' := by
  have hcontent := h.alike.content fun _ => trivial
  cases hcontent with
  | scalar _ =>
    obtain ⟨path, hpath, hpath'⟩ := h.textAt
    exact .scalar fun _ => .scalar hpath hpath'
  | map => exact .map
  | sequence _ => exact .sequence h.items

/-- The same templates are filled with data that differs in texts only, and so they take the same
course. -/
def Likeness.retexted (template : Template) (templates : TemplateMap) (data data' : Provider) :
    Likeness templates templates where
  toComparison := Comparison.course
  text := WovenIfEmptyAlike template templates data data'
  value := Counterpart data data'
  core core core' := Counterpart data data' core.toProvider core'.toProvider
  known _ := True
  part := PartWithin (template.vocabulary templates data)
  stop_tooDeep := rfl
  notes_outer _ _ := rfl
  text_nil _ := .nil
  text_append hs ht hempty := (hs hempty).append (ht hempty)
  unwrap {v v'} hv t t' _ := by
    have hfound := hv.unwrap t t'
    refine ⟨.ok ?_, rfl, trivial⟩
    generalize (v.unwrap t).1 = found, (v'.unwrap t').1 = found' at hfound
    cases hfound with
    | none => exact .none
    | @some u u' hu =>
      obtain ⟨hcore, hown, howns⟩ := hu
      refine .some ⟨hcore.content, hcore, ?_⟩
      rw [← hown]
      cases ho : u.own with
      | none => exact .none
      | some own => exact .some (ownPart_within (howns own ho))
  lookup h name _ := h.lookup name
  body := by
    rintro p _ ⟨rfl, hp⟩
    refine bodyAlike_of_within (fun _ _ => rfl) (fun t ht _ => .fixed ht) (fun place hplace => ?_)
      (fun spot name _ => namedPart_within spot name) _ _ hp
    have hseparator := hplace place.joining.separator (by simp [Placement.wording])
    exact ⟨fun t t' ht hempty => (ht hempty).wrap hempty hplace,
      fun ts ts' hts hempty => .join hempty hseparator (hts.imp fun _ _ h => h hempty)⟩

/-- A fill of data with other texts passes over the same scopes, asks for the same templates, and
fails for the same reason or not at all. If no text becomes empty or ceases to be, the outputs are
put together of the same fragments: wording of the templates, and whole texts of the data. -/
theorem fillWithin_retexted (h : data.Alike (fun _ _ => True) (fun _ => True) data')
    (hcalm : data.counterFree = true) (hcalm' : data'.counterFree = true) (template : Template)
    (templates : TemplateMap) (limit : Nat) (t : Tally) :
    ((template.fillWithin limit templates data).run t).notes =
      ((template.fillWithin limit templates data').run t).notes ∧
    ((template.fillWithin limit templates data).run t).result.map (fun _ => ()) =
      ((template.fillWithin limit templates data').run t).result.map (fun _ => ()) ∧
    (data.Alike (fun s s' => s = [] ↔ s' = []) (fun _ => True) data' → ∀ text text',
      ((template.fillWithin limit templates data).run t).result = .ok text →
      ((template.fillWithin limit templates data').run t).result = .ok text' →
      Woven (template.Wording templates data) data data' text text') := by
  -- Only the relation on texts depends on their being empty, so one comparison is enough.
  let L := Likeness.retexted template templates data data'
  have hfill : Filling.Alike L.toComparison L.text (template.fillWithin limit templates data)
      (template.fillWithin limit templates data') := by
    cases hcompile : template.compile with
    | error e =>
      rw [Template.fillWithin, Template.fillWithin, hcompile]
      exact alike_stop rfl
    | ok compiled =>
      rw [Template.fillWithin_of_compile hcompile, Template.fillWithin_of_compile hcompile]
      have hpart : L.part compiled.part compiled.part :=
        ⟨rfl, Body.within_wording fun _ htext => .root hcompile htext⟩
      exact L.fillRoot_alike limit hpart rfl ⟨h, hcalm, hcalm', fun _ ho => ho, [], rfl, rfl⟩
  obtain ⟨hresult, hnotes, -⟩ := hfill t t trivial
  refine ⟨hnotes, ?_⟩
  generalize ((template.fillWithin limit templates data).run t).result = r,
    ((template.fillWithin limit templates data').run t).result = r' at hresult
  cases hresult with
  | error hstop =>
    obtain rfl : _ = _ := hstop
    exact ⟨rfl, fun _ _ _ hr => by cases hr⟩
  | ok htext =>
    refine ⟨rfl, fun hempty text text' hr hr' => ?_⟩
    cases hr
    cases hr'
    exact htext hempty.emptyAlike

end

/-- Every element of a list in brackets, with the wording around it. -/
def bracketTemplate : Template :=
  .new "\x7b\x7bx%,|![\x7b\x7b.\x7d\x7d]\x7d\x7d".toList

/-- An element that looks like a substitution, and an empty one. Neither of them is read as a
template. -/
def braceData : Provider :=
  .map none [(['x'], .sequence [.scalar "\x7b\x7by\x7d\x7d".toList, .scalar []])]

def plainData : Provider :=
  .map none [(['x'], .sequence [.scalar ['b'], .scalar []])]

theorem fillWithin_retexted_braces :
    braceData.Alike (fun _ _ => True) (fun _ => True) plainData ∧
    braceData.counterFree = true ∧ plainData.counterFree = true ∧
    braceData.Alike (fun s s' => s = [] ↔ s' = []) (fun _ => True) plainData ∧
    ((bracketTemplate.fillWithin 9 .empty braceData).run .empty).result =
      .ok "[\x7b\x7by\x7d\x7d],[]".toList ∧
    ((bracketTemplate.fillWithin 9 .empty plainData).run .empty).result = .ok "[b],[]".toList ∧
    Woven (bracketTemplate.Wording .empty braceData) braceData plainData
      "[\x7b\x7by\x7d\x7d],[]".toList "[b],[]".toList := by
  have hdata : ∀ text : Text → Text → Prop, text "\x7b\x7by\x7d\x7d".toList ['b'] →
      braceData.Alike text (fun _ => True) plainData := by
    intro text htext
    refine .map (fun name _ => ?_) fun name v v' _ hv hv' => ?_
    · rw [List.lookup_cons, List.lookup_cons]
      split <;> rfl
    · by_cases hname : name = ['x']
      · subst hname
        cases hv
        cases hv'
        refine .sequence rfl fun i hi hi' => ?_
        match i with
        | 0 => exact .scalar htext
        | 1 => exact .refl _
        | i + 2 => exact absurd hi (by simp)
      · rw [List.lookup_cons, beq_eq_false_iff_ne.2 hname] at hv
        cases hv
  have hany := hdata (fun _ _ => True) trivial
  have hempty := hdata (fun s s' => s = [] ↔ s' = []) (by decide +kernel)
  have hbraces : ((bracketTemplate.fillWithin 9 .empty braceData).run .empty).result =
      .ok "[\x7b\x7by\x7d\x7d],[]".toList := by decide +kernel
  have hplain : ((bracketTemplate.fillWithin 9 .empty plainData).run .empty).result =
      .ok "[b],[]".toList := by decide +kernel
  have hfill := fillWithin_retexted hany rfl rfl bracketTemplate .empty 9 .empty
  exact ⟨hany, rfl, rfl, hempty, hbraces, hplain, hfill.2.2 hempty _ _ hbraces hplain⟩

end Stencil
