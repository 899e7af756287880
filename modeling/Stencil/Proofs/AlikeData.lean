import Stencil.Proofs.OwnTemplates

/-!
# Data of the same build

Two providers are alike when they are built of the same wrappers, sequences, maps and own templates,
up to the texts of their scalars and the values under names that nobody knows. Then they are also
alike where a fill looks into them, below their wrappers and under every known name.
-/
namespace Stencil

/-- Texts may differ as far as `text` allows, and maps wherever a name is not `known`. JSON values
are compared by what they stand for. -/
inductive Provider.Alike (text : Text → Text → Prop) (known : Text → Prop) :
    Provider → Provider → Prop
  | refl (v : Provider) : Alike text known v v
  | scalar {t t' : Text} : text t t' → Alike text known (.scalar t) (.scalar t')
  | sequence {items items' : List Provider} : items.length = items'.length →
    (∀ i (h : i < items.length) (h' : i < items'.length), Alike text known items[i] items'[i]) →
    Alike text known (.sequence items) (.sequence items')
  | map {own : Option OwnTemplate} {entries entries' : List (Text × Provider)} :
    (∀ name, known name → (entries.lookup name).isSome = (entries'.lookup name).isSome) →
    (∀ name v v', known name → entries.lookup name = some v → entries'.lookup name = some v' →
      Alike text known v v') →
    Alike text known (.map own entries) (.map own entries')
  | present {v v' : Provider} : Alike text known v v' →
    Alike text known (.present v) (.present v')
  | pointer {v v' : Provider} : Alike text known v v' →
    Alike text known (.pointer v) (.pointer v')
  | callback {v v' : Provider} : Alike text known v v' →
    Alike text known (.callback v) (.callback v')
  | delegate {own : Option OwnTemplate} {v v' : Provider} : Alike text known v v' →
    Alike text known (.delegate own v) (.delegate own v')
  | json {value value' : JsonValue} {core core' : Core} : value.core = some core →
    value'.core = some core' → Alike text known core.toProvider core'.toProvider →
    Alike text known (.json value) (.json value')

namespace Provider.Alike

variable {text : Text → Text → Prop} {known : Text → Prop}

theorem content (htext : ∀ t, text t t) {core core' : Core}
    (h : Provider.Alike text known core.toProvider core'.toProvider) :
    CoreAlike text (Provider.Alike text known) core core' := by
  cases core with
  | scalar t =>
    cases core' with
    | scalar t' =>
      cases h with
      | refl => exact .scalar (htext t)
      | scalar ht => exact .scalar ht
    | sequence items' => cases h
    | map own' entries' => cases h
  | sequence items =>
    cases core' with
    | scalar t' => cases h
    | sequence items' =>
      cases h with
      | refl => exact .sequence (List.forall₂_same.2 fun item _ => .refl item)
      | sequence hlength h =>
        exact .sequence (List.forall₂_iff_get.2 ⟨hlength, fun i hi hi' => h i hi hi'⟩)
    | map own' entries' => cases h
  | map own entries =>
    cases core' with
    | scalar t' => cases h
    | sequence items' => cases h
    | map own' entries' => exact .map

theorem own_eq {core core' : Core}
    (h : Provider.Alike text known core.toProvider core'.toProvider) : core.own = core'.own := by
  cases core <;> cases core' <;> cases h <;> rfl

/-- Two unwrapped values have cores that are alike and the same outermost template. So the same
template is chosen for both. -/
structure Found (text : Text → Text → Prop) (known : Text → Prop) (u u' : Unwrapped) : Prop where
  core : Provider.Alike text known u.core.toProvider u'.core.toProvider
  own : u.own = u'.own

theorem found_ofCore {core core' : Core}
    (h : Provider.Alike text known core.toProvider core'.toProvider) :
    Found text known (.ofCore core) (.ofCore core') :=
  ⟨h, own_eq h⟩

/-- The wrappers are the same on both sides, so that alike values come out and the same counters are
invoked. -/
theorem unwrap {v v' : Provider} (h : Provider.Alike text known v v') (t : Tally) :
    Option.Rel (Found text known) (v.unwrap t).1 (v'.unwrap t).1 ∧
      (v.unwrap t).2 = (v'.unwrap t).2 := by
  induction h with
  | refl v =>
    refine ⟨?_, rfl⟩
    cases (v.unwrap t).1 with
    | none => exact .none
    | some u => exact .some ⟨.refl _, rfl⟩
  | @scalar s s' ht =>
    have hcore : Provider.Alike text known (Core.scalar s).toProvider (Core.scalar s').toProvider :=
      .scalar ht
    exact ⟨.some (found_ofCore hcore), rfl⟩
  | @sequence items items' hlength h _ =>
    have hcore : Provider.Alike text known (Core.sequence items).toProvider
      (Core.sequence items').toProvider := .sequence hlength h
    exact ⟨.some (found_ofCore hcore), rfl⟩
  | @map own entries entries' hnames h _ =>
    have hcore : Provider.Alike text known (Core.map own entries).toProvider
      (Core.map own entries').toProvider := .map hnames h
    exact ⟨.some (found_ofCore hcore), rfl⟩
  | present _ ih | pointer _ ih | callback _ ih => exact ih
  | @delegate own v v' _ ih =>
    obtain ⟨hfound, htally⟩ := ih
    refine ⟨?_, htally⟩
    simp only [Provider.unwrap]
    generalize (v.unwrap t).1 = found, (v'.unwrap t).1 = found' at hfound
    cases hfound with
    | none => exact .none
    | some h => exact .some ⟨h.core, congrArg (own <|> ·) h.own⟩
  | @json value value' core core' hvalue hvalue' hcore _ =>
    refine ⟨?_, rfl⟩
    simp only [Provider.unwrap, hvalue, hvalue']
    exact .some (found_ofCore hcore)

theorem entries {own own' : Option OwnTemplate} {entries entries' : List (Text × Provider)}
    (h : Provider.Alike text known (.map own entries) (.map own' entries')) {name : Text}
    (hname : known name) :
    Option.Rel (Provider.Alike text known) (entries.lookup name) (entries'.lookup name) := by
  cases h with
  | refl =>
    cases entries.lookup name with
    | none => exact .none
    | some v => exact .some (.refl v)
  | map hnames h =>
    have hsome := hnames name hname
    cases hv : entries.lookup name with
    | none =>
      cases hv' : entries'.lookup name with
      | none => exact .none
      | some v' => simp [hv, hv'] at hsome
    | some v =>
      cases hv' : entries'.lookup name with
      | none => simp [hv, hv'] at hsome
      | some v' => exact .some (h _ v v' hname hv hv')

theorem lookup {core core' : Core} (h : Provider.Alike text known core.toProvider core'.toProvider)
    (name : Text) (hname : known name) :
    Option.Rel (Provider.Alike text known) (core.lookup name) (core'.lookup name) := by
  cases name with
  | nil => exact .some h
  | cons c name =>
    cases core with
    | scalar t => cases core' <;> cases h <;> exact .none
    | sequence items => cases core' <;> cases h <;> exact .none
    | map own entries =>
      cases core' with
      | scalar t' => cases h
      | sequence items' => cases h
      | map own' entries' => exact h.entries hname

end Provider.Alike

end Stencil
