import Stencil.Proofs.Resemblance

/-!
# Transparent wrappers

Wrappers without a template of their own, and the change from plain data to JSON values, cannot be
seen in a fill: below them the same texts, sequences and maps are found, with the same templates.
-/
namespace Stencil

/-- The second provider is the first one with wrappers around any of its parts, and with JSON values
in the place of parts that consist of nothing, truth values, integers, texts, sequences and maps. -/
inductive Rewrapped : Provider → Provider → Prop
  | refl (v : Provider) : Rewrapped v v
  | sequence {items items' : List Provider} : items.length = items'.length →
    (∀ i (h : i < items.length) (h' : i < items'.length), Rewrapped items[i] items'[i]) →
    Rewrapped (.sequence items) (.sequence items')
  | map {own : Option OwnTemplate} {entries entries' : List (Text × Provider)} :
    (∀ name, (entries.lookup name).isSome = (entries'.lookup name).isSome) →
    (∀ name v v', entries.lookup name = some v → entries'.lookup name = some v' →
      Rewrapped v v') →
    Rewrapped (.map own entries) (.map own entries')
  | present {v v' : Provider} : Rewrapped v v' → Rewrapped (.present v) (.present v')
  | pointer {v v' : Provider} : Rewrapped v v' → Rewrapped (.pointer v) (.pointer v')
  | callback {v v' : Provider} : Rewrapped v v' → Rewrapped (.callback v) (.callback v')
  | delegate {own : Option OwnTemplate} {v v' : Provider} : Rewrapped v v' →
    Rewrapped (.delegate own v) (.delegate own v')
  | wrapPresent {v v' : Provider} : Rewrapped v v' → Rewrapped v (.present v')
  | wrapPointer {v v' : Provider} : Rewrapped v v' → Rewrapped v (.pointer v')
  | wrapCallback {v v' : Provider} : Rewrapped v v' → Rewrapped v (.callback v')
  | wrapDelegate {v v' : Provider} : Rewrapped v v' → Rewrapped v (.delegate none v')
  | null : Rewrapped .absent (.json .null)
  | bool (value : Bool) : Rewrapped (.scalar (boolText value)) (.json (.bool value))
  | integer (value : Int) : Rewrapped (.scalar (integerText value)) (.json (.integer value))
  | string (value : Text) : Rewrapped (.scalar value) (.json (.string value))
  | array {items : List Provider} {values : List JsonValue} : items.length = values.length →
    (∀ i (h : i < items.length) (h' : i < values.length), Rewrapped items[i] (.json values[i])) →
    Rewrapped (.sequence items) (.json (.array values))
  | object {entries : List (Text × Provider)} {members : List (Text × JsonValue)} :
    (∀ name, (entries.lookup name).isSome = (members.lookup name).isSome) →
    (∀ name v value, entries.lookup name = some v → members.lookup name = some value →
      Rewrapped v (.json value)) →
    Rewrapped (.map none entries) (.json (.object members))

namespace Rewrapped

theorem forall₂ {items items' : List Provider} (hlength : items.length = items'.length)
    (h : ∀ i (hi : i < items.length) (hi' : i < items'.length), Rewrapped items[i] items'[i]) :
    List.Forall₂ Rewrapped items items' :=
  List.forall₂_iff_get.2 ⟨hlength, fun i hi hi' => h i hi hi'⟩

theorem forall₂_refl (items : List Provider) : List.Forall₂ Rewrapped items items :=
  List.forall₂_same.2 fun item _ => .refl item

theorem optionRel_refl (found : Option Provider) : Option.Rel Rewrapped found found := by
  cases found with
  | none => exact .none
  | some v => exact .some (.refl v)

theorem lookup_members (name : Text) (members : List (Text × JsonValue)) :
    (members.map fun member => (member.1, Provider.json member.2)).lookup name =
      (members.lookup name).map .json := by
  induction members with
  | nil => rfl
  | cons member members ih =>
    obtain ⟨key, value⟩ := member
    simp only [List.map_cons, List.lookup_cons]
    cases name == key with
    | true => rfl
    | false => exact ih

theorem content {core core' : Core} (h : Rewrapped core.toProvider core'.toProvider) :
    CoreAlike Eq Rewrapped core core' := by
  cases core with
  | scalar text =>
    cases core' with
    | scalar text' => cases h; exact .scalar rfl
    | sequence items' => cases h
    | map own' entries' => cases h
  | sequence items =>
    cases core' with
    | scalar text' => cases h
    | sequence items' =>
      cases h with
      | refl => exact .sequence (forall₂_refl items)
      | sequence hlength h => exact .sequence (forall₂ hlength h)
    | map own' entries' => cases h
  | map own entries =>
    cases core' with
    | scalar text' => cases h
    | sequence items' => cases h
    | map own' entries' => exact .map

/-- Two unwrapped values have cores that differ in wrappers and the same outermost template. A fill
finds out nothing else about a value. -/
def Found (u u' : Unwrapped) : Prop :=
  CoreAlike Eq Rewrapped u.core u'.core ∧ Rewrapped u.core.toProvider u'.core.toProvider ∧
    u.own = u'.own

theorem found_ofCore {core core' : Core} (h : Rewrapped core.toProvider core'.toProvider)
    (hown : core.own = core'.own) : Option.Rel Found (some (.ofCore core)) (some (.ofCore core')) :=
  .some ⟨content h, h, hown⟩

/-- Wrappers come off without a trace. The counters are where they would be without the wrappers,
and nothing is found on one side only. -/
theorem unwrap {v v' : Provider} (h : Rewrapped v v') (t : Tally) :
    Option.Rel Found (v.unwrap t).1 (v'.unwrap t).1 ∧ (v.unwrap t).2 = (v'.unwrap t).2 := by
  induction h with
  | refl v =>
    refine ⟨?_, rfl⟩
    cases (v.unwrap t).1 with
    | none => exact .none
    | some u => exact .some ⟨content (.refl _), .refl _, rfl⟩
  | sequence hlength h _ => exact ⟨found_ofCore (.sequence hlength h) rfl, rfl⟩
  | map hnames h _ => exact ⟨found_ofCore (.map hnames h) rfl, rfl⟩
  | present _ ih | pointer _ ih | callback _ ih => exact ih
  | wrapPresent _ ih | wrapPointer _ ih | wrapCallback _ ih => exact ih
  | @delegate own v v' _ ih =>
    obtain ⟨hfound, htally⟩ := ih
    refine ⟨?_, htally⟩
    simp only [Provider.unwrap]
    generalize (v.unwrap t).1 = found, (v'.unwrap t).1 = found' at hfound
    cases hfound with
    | none => exact .none
    | some h => exact .some ⟨h.1, h.2.1, congrArg (own <|> ·) h.2.2⟩
  | @wrapDelegate v v' _ ih =>
    obtain ⟨hfound, htally⟩ := ih
    refine ⟨?_, htally⟩
    simp only [Provider.unwrap]
    generalize (v.unwrap t).1 = found, (v'.unwrap t).1 = found' at hfound
    cases hfound with
    | none => exact .none
    | some h => exact .some ⟨h.1, h.2.1, by simpa using h.2.2⟩
  | null => exact ⟨.none, rfl⟩
  | bool value => exact ⟨found_ofCore (.refl _) rfl, rfl⟩
  | integer value => exact ⟨found_ofCore (.refl _) rfl, rfl⟩
  | string value => exact ⟨found_ofCore (.refl _) rfl, rfl⟩
  | @array items values hlength h _ =>
    have hcore : Rewrapped (.sequence items) (Core.sequence (values.map .json)).toProvider := by
      refine .sequence (by simpa using hlength) fun i hi hi' => ?_
      simpa using h i hi (by simpa using hi')
    exact ⟨found_ofCore hcore rfl, rfl⟩
  | @object entries members hnames h _ =>
    have hcore : Rewrapped (.map none entries) (Core.map none (members.map fun member =>
        (member.1, .json member.2))).toProvider := by
      refine .map (fun name => ?_) fun name v v' hv hv' => ?_
      · rw [lookup_members, hnames, Option.isSome_map]
      · rw [lookup_members] at hv'
        obtain ⟨value, hvalue, rfl⟩ := Option.map_eq_some_iff.1 hv'
        exact h name v value hv hvalue
    exact ⟨found_ofCore hcore rfl, rfl⟩

theorem lookup {core core' : Core} (h : Rewrapped core.toProvider core'.toProvider) (name : Text) :
    Option.Rel Rewrapped (core.lookup name) (core'.lookup name) := by
  cases name with
  | nil => exact .some h
  | cons c name =>
    cases content h with
    | scalar _ => exact .none
    | sequence _ => exact .none
    | @map own own' entries entries' =>
      simp only [Core.lookup]
      cases h with
      | refl => exact optionRel_refl _
      | map hnames h =>
        have hname := hnames (c :: name)
        cases hv : entries.lookup (c :: name) with
        | none =>
          cases hv' : entries'.lookup (c :: name) with
          | none => exact .none
          | some v' => simp [hv, hv'] at hname
        | some v =>
          cases hv' : entries'.lookup (c :: name) with
          | none => simp [hv, hv'] at hname
          | some v' => exact .some (h _ v v' hv hv')

end Rewrapped

theorem Filling.eq_of_alike {α : Type} {p q : Filling α} (h : Alike Comparison.exact Eq p q) :
    p = q := by
  ext tally
  obtain ⟨hresult, hnotes, htally⟩ := h tally tally rfl
  cases hp : p.run tally with
  | mk result notes after =>
    cases hq : q.run tally with
    | mk result' notes' after' =>
      rw [hp, hq] at hresult hnotes htally
      obtain rfl : notes = notes' := hnotes
      obtain rfl : after = after' := htally
      cases hresult with
      | ok h => rw [h]
      | error h => rw [show _ = _ from h]

/-- Data with other wrappers, for one and the same template. The template is filled on both sides,
and only the scopes differ. -/
def Rewrapped.scenery : Scenery Comparison.exact where
  value := Rewrapped
  core core core' := Rewrapped core.toProvider core'.toProvider
  unwrap h := by
    rintro t _ rfl
    obtain ⟨hfound, htally⟩ := h.unwrap t
    exact ⟨.ok hfound, rfl, htally⟩
  lookup := lookup

/-- A fill gives the same report for data with other wrappers: the same text or the same error, and
the same notes and invocations. -/
theorem fillWithin_rewrapped (template : Template) (limit : Nat) (templates : TemplateMap)
    {data data' : Provider} (h : Rewrapped data data') :
    template.fillWithin limit templates data = template.fillWithin limit templates data' := by
  unfold Template.fillWithin
  congr 1
  funext compiled
  apply Filling.eq_of_alike
  let L := Likeness.ofScenery Comparison.exact_through templates Rewrapped.scenery
  exact L.fillRoot_alike limit (PartResembles.refl compiled.part) rfl h

/-- A list with a number and an empty element, and the same list as a JSON value behind a delegate.
A fill cannot tell the one from the other. -/
theorem fillWithin_rewrapped_list :
    Rewrapped (.map none [(['a'], .sequence [.scalar ['7'], .absent])])
      (.pointer (.map none [(['a'], .delegate none (.json (.array [.integer 7, .null])))])) ∧
    (Template.new ['{', '{', 'a', '}', '}']).fillWithin 9 .empty
        (.map none [(['a'], .sequence [.scalar ['7'], .absent])]) =
      (Template.new ['{', '{', 'a', '}', '}']).fillWithin 9 .empty
        (.pointer (.map none [(['a'], .delegate none (.json (.array [.integer 7, .null])))])) := by
  have harray : Rewrapped (.sequence [.scalar ['7'], .absent])
      (.json (.array [.integer 7, .null])) := by
    refine .array rfl fun i hi hi' => ?_
    match i with
    | 0 => exact .integer 7
    | 1 => exact .null
    | i + 2 => exact absurd hi (by simp)
  have hdata : Rewrapped (.map none [(['a'], .sequence [.scalar ['7'], .absent])])
      (.pointer (.map none [(['a'], .delegate none (.json (.array [.integer 7, .null])))])) := by
    refine .wrapPointer (.map (fun name => ?_) fun name v v' hv hv' => ?_)
    · rw [List.lookup_cons, List.lookup_cons]
      split <;> rfl
    · by_cases hname : name = ['a']
      · subst hname
        cases hv
        cases hv'
        exact .wrapDelegate harray
      · rw [List.lookup_cons, beq_eq_false_iff_ne.2 hname] at hv
        cases hv
  exact ⟨hdata, fillWithin_rewrapped _ 9 .empty hdata⟩

end Stencil
