import Stencil.Proofs.Introspection
import Stencil.Session

/-!
# Compiled forms

The compiled forms of templates can be dropped, from a template, from a map or from all templates
that a provider carries. Where the forms are those of the sources, a fill does the same without
them: it gives the same text or error, and leaves the counters the same.
-/
namespace Stencil

/-! ### Templates -/

namespace Template

/-- The template without its form, as it was when it was new. -/
def forget (template : Template) : Template :=
  .new template.source

@[simp] theorem source_forget (template : Template) :
    template.forget.source = template.source := rfl

@[simp] theorem forget_forget (template : Template) :
    template.forget.forget = template.forget := rfl

@[simp] theorem forget_prepare (template : Template) :
    template.prepare.forget = template.forget := rfl

theorem faithful_forget (template : Template) : template.forget.Faithful :=
  faithful_new template.source

theorem Faithful.compile_forget {template : Template} (h : template.Faithful) :
    template.forget.compile = template.compile :=
  h.compile_eq.symm

end Template

/-! ### Values by name -/

theorem lookup_mapValues {α β : Type} (f : Text → α → β) (name : Text)
    (entries : List (Text × α)) :
    (entries.map fun entry => (entry.1, f entry.1 entry.2)).lookup name =
      (entries.lookup name).map (f name) := by
  induction entries with
  | nil => rfl
  | cons entry rest ih =>
    obtain ⟨key, value⟩ := entry
    rw [List.map_cons, List.lookup_cons, List.lookup_cons]
    by_cases h : name = key
    · subst h
      simp
    · rw [beq_eq_false_iff_ne.2 h]
      exact ih

namespace TemplateMap

theorem get?_mapTemplates (f : Text → Template → Template) (templates : TemplateMap) (name : Text) :
    (templates.mapTemplates f).get? name = (templates.get? name).map (f name) :=
  lookup_mapValues f name templates.entries

/-- The map without the forms of its templates, with the same names and sources. -/
def forget (templates : TemplateMap) : TemplateMap :=
  templates.mapTemplates fun _ template => template.forget

theorem get?_forget (templates : TemplateMap) (name : Text) :
    templates.forget.get? name = (templates.get? name).map Template.forget :=
  get?_mapTemplates _ templates name

end TemplateMap

/-! ### Own templates -/

mutual

/-- Changes all own templates of a provider in their places, under wrappers and inside of maps and
sequences, too. -/
def Provider.mapOwns (f : OwnTemplate → OwnTemplate) : Provider → Provider
  | .scalar text => .scalar text
  | .sequence items => .sequence (mapOwnsItems f items)
  | .map own entries => .map (own.map f) (mapOwnsEntries f entries)
  | .absent => .absent
  | .present inner => .present (inner.mapOwns f)
  | .pointer inner => .pointer (inner.mapOwns f)
  | .callback inner => .callback (inner.mapOwns f)
  | .delegate own inner => .delegate (own.map f) (inner.mapOwns f)
  | .counter id => .counter id
  | .json value => .json value

def Provider.mapOwnsItems (f : OwnTemplate → OwnTemplate) : List Provider → List Provider
  | [] => []
  | item :: rest => item.mapOwns f :: mapOwnsItems f rest

def Provider.mapOwnsEntries (f : OwnTemplate → OwnTemplate) :
    List (Text × Provider) → List (Text × Provider)
  | [] => []
  | (key, value) :: rest => (key, value.mapOwns f) :: mapOwnsEntries f rest

end

namespace Provider

variable (f g : OwnTemplate → OwnTemplate)

theorem mapOwnsItems_eq (items : List Provider) : mapOwnsItems f items = items.map (mapOwns f) := by
  induction items with
  | nil => rfl
  | cons item rest ih => exact congrArg (item.mapOwns f :: ·) ih

theorem mapOwnsEntries_eq (entries : List (Text × Provider)) :
    mapOwnsEntries f entries = entries.map fun entry => (entry.1, entry.2.mapOwns f) := by
  induction entries with
  | nil => rfl
  | cons entry rest ih => exact congrArg ((entry.1, entry.2.mapOwns f) :: ·) ih

end Provider

mutual

theorem Provider.mapOwns_mapOwns (f g : OwnTemplate → OwnTemplate) :
    ∀ v : Provider, (v.mapOwns f).mapOwns g = v.mapOwns (g ∘ f)
  | .scalar _ => rfl
  | .sequence items => congrArg sequence (mapOwnsItems_mapOwns f g items)
  | .map own entries => by
    simp [mapOwns, mapOwnsEntries_mapOwns f g entries]
  | .absent => rfl
  | .present inner => congrArg present (inner.mapOwns_mapOwns f g)
  | .pointer inner => congrArg pointer (inner.mapOwns_mapOwns f g)
  | .callback inner => congrArg callback (inner.mapOwns_mapOwns f g)
  | .delegate own inner => by
    simp [mapOwns, inner.mapOwns_mapOwns f g]
  | .counter _ => rfl
  | .json _ => rfl

theorem Provider.mapOwnsItems_mapOwns (f g : OwnTemplate → OwnTemplate) :
    ∀ items : List Provider, mapOwnsItems g (mapOwnsItems f items) = mapOwnsItems (g ∘ f) items
  | [] => rfl
  | item :: rest =>
    congrArg₂ List.cons (item.mapOwns_mapOwns f g) (mapOwnsItems_mapOwns f g rest)

theorem Provider.mapOwnsEntries_mapOwns (f g : OwnTemplate → OwnTemplate) :
    ∀ entries : List (Text × Provider),
      mapOwnsEntries g (mapOwnsEntries f entries) = mapOwnsEntries (g ∘ f) entries
  | [] => rfl
  | (key, value) :: rest =>
    congrArg₂ List.cons (congrArg (Prod.mk key) (value.mapOwns_mapOwns f g))
      (mapOwnsEntries_mapOwns f g rest)

end

mutual

theorem Provider.owns_mapOwns (f : OwnTemplate → OwnTemplate) :
    ∀ v : Provider, (v.mapOwns f).owns = v.owns.map f
  | .scalar _ => rfl
  | .sequence items => ownsItems_mapOwns f items
  | .map own entries => by
    cases own <;> simp [mapOwns, owns, ownsEntries_mapOwns f entries]
  | .absent => rfl
  | .present inner => inner.owns_mapOwns f
  | .pointer inner => inner.owns_mapOwns f
  | .callback inner => inner.owns_mapOwns f
  | .delegate own inner => by
    cases own <;> simp [mapOwns, owns, inner.owns_mapOwns f]
  | .counter _ => rfl
  | .json _ => rfl

theorem Provider.ownsItems_mapOwns (f : OwnTemplate → OwnTemplate) :
    ∀ items : List Provider, ownsItems (mapOwnsItems f items) = (ownsItems items).map f
  | [] => rfl
  | item :: rest => by
    simp [mapOwnsItems, ownsItems, item.owns_mapOwns f, ownsItems_mapOwns f rest]

theorem Provider.ownsEntries_mapOwns (f : OwnTemplate → OwnTemplate) :
    ∀ entries : List (Text × Provider),
      ownsEntries (mapOwnsEntries f entries) = (ownsEntries entries).map f
  | [] => rfl
  | (_, value) :: rest => by
    simp [mapOwnsEntries, ownsEntries, value.owns_mapOwns f, ownsEntries_mapOwns f rest]

end

mutual

/-- Settling a provider changes its own templates only, each of them in its place. -/
theorem Provider.settle_eq (notes : List Note) :
    ∀ v : Provider, v.settle notes = v.mapOwns (OwnTemplate.settle notes)
  | .scalar _ => rfl
  | .sequence items => congrArg sequence (settleItems_eq notes items)
  | .map _ entries => congrArg (map _) (settleEntries_eq notes entries)
  | .absent => rfl
  | .present inner => congrArg present (inner.settle_eq notes)
  | .pointer inner => congrArg pointer (inner.settle_eq notes)
  | .callback inner => congrArg callback (inner.settle_eq notes)
  | .delegate _ inner => congrArg (delegate _) (inner.settle_eq notes)
  | .counter _ => rfl
  | .json _ => rfl

theorem Provider.settleItems_eq (notes : List Note) :
    ∀ items : List Provider, settleItems notes items =
      mapOwnsItems (OwnTemplate.settle notes) items
  | [] => rfl
  | item :: rest => congrArg₂ List.cons (item.settle_eq notes) (settleItems_eq notes rest)

theorem Provider.settleEntries_eq (notes : List Note) :
    ∀ entries : List (Text × Provider), settleEntries notes entries =
      mapOwnsEntries (OwnTemplate.settle notes) entries
  | [] => rfl
  | (key, value) :: rest =>
    congrArg₂ List.cons (congrArg (Prod.mk key) (value.settle_eq notes))
      (settleEntries_eq notes rest)

end

/-- The own template without its form, in the same cell, so that it is still told apart from
others. -/
def OwnTemplate.forget (own : OwnTemplate) : OwnTemplate :=
  { own with template := own.template.forget }

namespace Provider

/-- The provider without the forms of its own templates, with everything else as it is. -/
def forget (v : Provider) : Provider :=
  v.mapOwns OwnTemplate.forget

/-- Forms make no difference once they are forgotten, whatever was done to the templates before. -/
theorem forget_mapOwns {f : OwnTemplate → OwnTemplate} (h : ∀ own, (f own).forget = own.forget)
    (v : Provider) : (v.mapOwns f).forget = v.forget := by
  rw [forget, mapOwns_mapOwns, forget]
  exact congrArg (mapOwns · v) (funext h)

end Provider

/-! ### Filling without forms -/

/-- The core with other own templates, at its top and further in. -/
def Core.mapOwns (f : OwnTemplate → OwnTemplate) : Core → Core
  | .scalar text => .scalar text
  | .sequence items => .sequence (items.map (Provider.mapOwns f))
  | .map own entries => .map (own.map f) (entries.map fun entry => (entry.1, entry.2.mapOwns f))

def Unwrapped.mapOwns (f : OwnTemplate → OwnTemplate) (u : Unwrapped) : Unwrapped :=
  ⟨u.core.mapOwns f, u.own.map f⟩

section

variable (f : OwnTemplate → OwnTemplate)

theorem Core.toProvider_mapOwns (core : Core) :
    (core.mapOwns f).toProvider = core.toProvider.mapOwns f := by
  cases core with
  | scalar text => rfl
  | sequence items =>
    rw [toProvider, Provider.mapOwns, Provider.mapOwnsItems_eq]
    rfl
  | map own entries =>
    rw [toProvider, Provider.mapOwns, Provider.mapOwnsEntries_eq]
    rfl

theorem Core.lookup_mapOwns (core : Core) (name : Text) :
    (core.mapOwns f).lookup name = (core.lookup name).map (Provider.mapOwns f) := by
  cases name with
  | nil => exact congrArg some (core.toProvider_mapOwns f)
  | cons c name =>
    cases core with
    | scalar text => rfl
    | sequence items => rfl
    | map own entries => exact lookup_mapValues (fun _ v => v.mapOwns f) _ entries

theorem Unwrapped.mapOwns_ofCore (core : Core) :
    (ofCore core).mapOwns f = ofCore (core.mapOwns f) := by
  cases core <;> rfl

/-- JSON values carry no templates, so that there is nothing to change. -/
theorem Core.mapOwns_json {value : JsonValue} {core : Core} (h : value.core = some core) :
    core.mapOwns f = core := by
  cases value with
  | null => cases h
  | bool value | integer value | double value | string value => cases h; rfl
  | array items =>
    cases h
    simp [mapOwns, Provider.mapOwns]
  | object members =>
    cases h
    simp [mapOwns, Provider.mapOwns]

theorem Provider.unwrap_mapOwns (v : Provider) (t : Tally) :
    (v.mapOwns f).unwrap t = ((v.unwrap t).1.map (Unwrapped.mapOwns f), (v.unwrap t).2) := by
  fun_induction unwrap t v with
  | case1 text => rfl
  | case2 items =>
    rw [mapOwns, mapOwnsItems_eq]
    rfl
  | case3 own entries =>
    rw [mapOwns, mapOwnsEntries_eq]
    rfl
  | case4 => rfl
  | case5 inner ih | case6 inner ih | case7 inner ih => exact ih
  | case8 own inner found tally hinner ih =>
    rw [hinner] at ih
    rw [mapOwns, unwrap, ih]
    cases found with
    | none => rfl
    | some u => cases own <;> rfl
  | case9 id => rfl
  | case10 value =>
    rw [mapOwns, unwrap]
    cases hcore : value.core with
    | none => rfl
    | some core =>
      rw [Option.map_some, Option.map_some, Unwrapped.mapOwns_ofCore, Core.mapOwns_json f hcore]

end

/-- The same parts are found under a name, whether or not the templates keep forms, and the same
errors come of it. -/
theorem namedPart_forget {templates : TemplateMap} (h : templates.Faithful) (spot : Spot)
    (name : Text) :
    Filling.Alike (Comparison.results Eq) Eq (namedPart templates spot name)
      (namedPart templates.forget spot name) := by
  unfold namedPart
  rw [TemplateMap.get?_forget]
  cases hget : templates.get? name with
  | none => exact Filling.alike_stop rfl
  | some template =>
    have htemplate : template.Faithful := h _ (TemplateMap.mem_of_get? hget)
    exact rootPart_alike htemplate.compile_forget trivial (fun _ _ => rfl) fun _ _ => rfl

/-- Everything may be asked for: all names, references and templates. -/
def Vocabulary.all : Vocabulary where
  names _ := True
  references _ := True
  wording _ := True

theorem Body.within_all (body : Body) : body.Within .all :=
  ⟨fun _ _ => trivial, fun _ _ => trivial, fun _ _ _ => trivial⟩

/-- Data and templates without their forms are filled alike, as a kept form is what the source
compiles to. -/
def Likeness.forget {templates : TemplateMap} (h : templates.Faithful) :
    Likeness templates templates.forget where
  toComparison := Comparison.results Eq
  text := Eq
  value v v' := v.Faithful ∧ v' = v.forget
  core s s' := s.toProvider.Faithful ∧ s' = s.mapOwns OwnTemplate.forget
  known _ := True
  part := PartWithin .all
  stop_tooDeep := rfl
  notes_outer _ _ := trivial
  text_nil := Text.nil_alike
  text_append := Text.append_alike
  unwrap := by
    rintro v _ ⟨hv, rfl⟩ t _ rfl
    have hunwrap := v.unwrap_mapOwns OwnTemplate.forget t
    refine ⟨.ok ?_, trivial, (congrArg Prod.snd hunwrap).symm⟩
    rw [show (v.forget.unwrap t).1 = _ from congrArg Prod.fst hunwrap]
    cases hfound : (v.unwrap t).1 with
    | none => exact .none
    | some u =>
      obtain ⟨hown, hcore⟩ := v.ownsIn_unwrap t u hfound
      have hfaithful : u.core.toProvider.Faithful := fun own hmem => hv own (hcore hmem)
      obtain ⟨core, own⟩ := u
      refine .some ⟨?_, ⟨hfaithful, rfl⟩, ?_⟩
      · cases core with
        | scalar text => exact .scalar rfl
        | map inner entries => exact .map
        | sequence items =>
          refine .sequence (List.forall₂_map_right_iff.2 (List.forall₂_same.2 fun item hitem => ?_))
          exact ⟨fun own hmem => hfaithful own (Provider.owns_subset_of_mem hitem hmem), rfl⟩
      · cases own with
        | none => exact .none
        | some own =>
          have htemplate : own.template.Faithful := hv own (hown own rfl)
          exact .some (rootPart_alike htemplate.compile_forget trivial (fun _ _ => rfl)
            fun compiled _ => ⟨rfl, compiled.root.within_all⟩)
  lookup := by
    rintro s _ ⟨hs, rfl⟩ name -
    rw [Core.lookup_mapOwns]
    cases hlookup : s.lookup name with
    | none => exact .none
    | some v =>
      exact .some ⟨fun own hmem => hs own (Core.owns_subset_of_lookup hlookup hmem), rfl⟩
  body := by
    rintro p _ ⟨rfl, hp⟩
    refine bodyAlike_of_within (fun _ _ => rfl) (fun _ _ => rfl) (fun place _ => .refl place)
      (fun spot name _ => ?_) _ _ hp
    exact (namedPart_forget h spot name).mono fun part _ heq => ⟨heq, part.body.within_all⟩

/-- A fill gives the same text or error without the forms of all that is given to it, and leaves the
counters the same. -/
theorem run_fillWithin_forget {template : Template} {templates : TemplateMap} {data : Provider}
    (htemplate : template.Faithful) (htemplates : templates.Faithful) (hdata : data.Faithful)
    (limit : Nat) (t : Tally) :
    ((template.forget.fillWithin limit templates.forget data.forget).run t).result =
        ((template.fillWithin limit templates data).run t).result ∧
      ((template.forget.fillWithin limit templates.forget data.forget).run t).tally =
        ((template.fillWithin limit templates data).run t).tally := by
  have halike : Filling.Alike (Comparison.results Eq) Eq
      (template.fillWithin limit templates data)
      (template.forget.fillWithin limit templates.forget data.forget) := by
    unfold Template.fillWithin
    rw [htemplate.compile_forget]
    cases template.compile with
    | error e => exact Filling.alike_stop rfl
    | ok compiled =>
      exact (Likeness.forget htemplates).fillRoot_alike limit
        ⟨rfl, compiled.root.within_all⟩ rfl ⟨hdata, rfl⟩
  obtain ⟨hresult, -, htally⟩ := halike t t rfl
  refine ⟨?_, htally.symm⟩
  generalize ((template.fillWithin limit templates data).run t).result = r,
    ((template.forget.fillWithin limit templates.forget data.forget).run t).result = r' at hresult
  cases hresult with
  | ok htext => exact congrArg Except.ok htext.symm
  | error hstop => exact congrArg Except.error hstop.symm

end Stencil
