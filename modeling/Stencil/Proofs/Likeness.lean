import Mathlib.Data.List.Forall2
import Stencil.Fill

/-!
# Alike fills

Two fills are compared step by step: their texts, their stops, their notes and the counters at
their end, each by a relation of its own. A `Likeness` lists what the data and the parts on the two
sides must have in common, one clause for each thing that a fill does with them. Then the fills are
alike as a whole, whatever the depth of the templates that they enter.
-/
namespace Stencil

/-! ### Comparing reports -/

/-- By what the outcomes of two fillings are compared, apart from their values: notes, reasons to
stop and counters. -/
structure Comparison where
  stop : Stop → Stop → Prop
  notes : List Note → List Note → Prop
  tally : Tally → Tally → Prop
  notes_nil : notes [] []
  notes_append : ∀ {ns ns' ms ms'}, notes ns ns' → notes ms ms' → notes (ns ++ ms) (ns' ++ ms')

inductive ResultAlike {α β : Type} (stop : Stop → Stop → Prop) (R : α → β → Prop) :
    Except Stop α → Except Stop β → Prop
  | ok {a : α} {b : β} : R a b → ResultAlike stop R (.ok a) (.ok b)
  | error {s s' : Stop} : stop s s' → ResultAlike stop R (.error s) (.error s')

structure ReportAlike {α β : Type} (c : Comparison) (R : α → β → Prop) (r : Report α)
    (r' : Report β) : Prop where
  result : ResultAlike c.stop R r.result r'.result
  notes : c.notes r.notes r'.notes
  tally : c.tally r.tally r'.tally

namespace Filling

variable {α β α' β' : Type} {c : Comparison}

/-- From counters that are alike, both fillings get alike reports. Whether they succeed is the same
on both sides. -/
def Alike (c : Comparison) (R : α → β → Prop) (p : Filling α) (q : Filling β) : Prop :=
  ∀ t t', c.tally t t' → ReportAlike c R (p.run t) (q.run t')

theorem alike_pure {R : α → β → Prop} {a : α} {b : β} (h : R a b) :
    Alike c R (pure a) (pure b) :=
  fun _ _ ht => ⟨.ok h, c.notes_nil, ht⟩

theorem alike_stop {R : α → β → Prop} {s s' : Stop} (h : c.stop s s') :
    Alike c R (stop s) (stop s') :=
  fun _ _ ht => ⟨.error h, c.notes_nil, ht⟩

theorem alike_note {n n' : Note} (h : c.notes [n] [n']) {R : Unit → Unit → Prop} (hR : R () ()) :
    Alike c R (note n) (note n') :=
  fun _ _ ht => ⟨.ok hR, h, ht⟩

theorem alike_bind {R : α → β → Prop} {R' : α' → β' → Prop} {p : Filling α} {q : Filling β}
    {next : α → Filling α'} {next' : β → Filling β'} (h : Alike c R p q)
    (hnext : ∀ a b, R a b → Alike c R' (next a) (next' b)) :
    Alike c R' (p >>= next) (q >>= next') := by
  intro t t' ht
  have hfirst := h t t' ht
  rw [run_bind, run_bind]
  cases hp : p.run t with
  | mk result notes tally =>
    cases hq : q.run t' with
    | mk result' notes' tally' =>
      rw [hp, hq] at hfirst
      obtain ⟨hresult, hnotes, htally⟩ := hfirst
      cases hresult with
      | ok hab =>
        have hsecond := hnext _ _ hab _ _ htally
        exact ⟨hsecond.result, c.notes_append hnotes hsecond.notes, hsecond.tally⟩
      | error hs => exact ⟨.error hs, hnotes, htally⟩

theorem alike_map {R : α → β → Prop} {R' : α' → β' → Prop} {p : Filling α} {q : Filling β}
    {f : α → α'} {g : β → β'} (h : Alike c R p q) (hfg : ∀ a b, R a b → R' (f a) (g b)) :
    Alike c R' (f <$> p) (g <$> q) := by
  rw [map_eq_bind, map_eq_bind]
  exact alike_bind h fun a b hab => alike_pure (hfg a b hab)

theorem Alike.mono {R R' : α → β → Prop} {p : Filling α} {q : Filling β} (h : Alike c R p q)
    (hR : ∀ a b, R a b → R' a b) : Alike c R' p q := by
  intro t t' ht
  have hrun := h t t' ht
  cases hp : p.run t with
  | mk result notes tally =>
    cases hq : q.run t' with
    | mk result' notes' tally' =>
      rw [hp, hq] at hrun
      obtain ⟨hresult, hnotes, htally⟩ := hrun
      cases hresult with
      | ok hab => exact ⟨.ok (hR _ _ hab), hnotes, htally⟩
      | error hs => exact ⟨.error hs, hnotes, htally⟩

end Filling

open Filling

/-- Two templates that compile to the same give the same part, or fail in ways that are alike. -/
theorem rootPart_alike {c : Comparison} {R : Part → Part → Prop} {n n' : Note}
    {template template' : Template} {failure : SyntaxError → FillError}
    (hcompile : template'.compile = template.compile) (hnote : c.notes [n] [n'])
    (hstop : ∀ e, template.compile = .error e →
      c.stop (.failed (failure e)) (.failed (failure e)))
    (hpart : ∀ compiled, template.compile = .ok compiled → R compiled.part compiled.part) :
    Alike c R
      (do note n
          let compiled ← ofExcept (template.compile.mapError failure)
          pure compiled.part)
      (do note n'
          let compiled ← ofExcept (template'.compile.mapError failure)
          pure compiled.part) := by
  rw [hcompile]
  refine alike_bind (R := Eq) (alike_note hnote rfl) fun _ _ _ => ?_
  cases h : template.compile with
  | error e => exact alike_stop (hstop e h)
  | ok compiled => exact alike_pure (hpart compiled h)

/-! ### Filling one value -/

/-- Two spots report every fault of a value alike, although they may quote different sources. -/
def Spot.Alike (c : Comparison) (spot spot' : Spot) : Prop :=
  ∀ fault, fault ≠ .missingTemplate → c.stop (.failed (.substitution (spot.error fault)))
    (.failed (.substitution (spot'.error fault)))

theorem Spot.Alike.fail {α β : Type} {c : Comparison} {spot spot' : Spot} (h : spot.Alike c spot')
    {R : α → β → Prop} {fault : FillFault} (hfault : fault ≠ .missingTemplate) :
    Filling.Alike c R (spot.fail fault) (spot'.fail fault) :=
  alike_stop (h fault hfault)

section Values

variable (c : Comparison) (text : Text → Text → Prop) (enter enter' : Enter)
  (given given' : Option Part) (scopes scopes' : Scopes)

/-- Two unwrapped values get parts that are filled alike, or none on both sides. -/
def ServedAlike (u u' : Unwrapped) : Prop :=
  Filling.Alike c
    (Option.Rel fun part part' => Filling.Alike c text (enter part (u.core :: scopes))
      (enter' part' (u'.core :: scopes')))
    (choosePart given u.own) (choosePart given' u'.own)

/-- Two elements of sequences are served alike, if there is anything under their wrappers, and have
nothing there together. -/
def ItemAlike (item item' : Provider) : Prop :=
  Filling.Alike c (Option.Rel (ServedAlike c text enter enter' given given' scopes scopes'))
    (unwrap item) (unwrap item')

inductive ValueAlike : Unwrapped → Unwrapped → Prop
  | scalar {t t' : Text} {own own' : Option OwnTemplate} : text t t' →
    ServedAlike c text enter enter' given given' scopes scopes' ⟨.scalar t, own⟩
      ⟨.scalar t', own'⟩ →
    ValueAlike ⟨.scalar t, own⟩ ⟨.scalar t', own'⟩
  | map {inner inner' own own' : Option OwnTemplate} {entries entries' : List (Text × Provider)} :
    ServedAlike c text enter enter' given given' scopes scopes' ⟨.map inner entries, own⟩
      ⟨.map inner' entries', own'⟩ →
    ValueAlike ⟨.map inner entries, own⟩ ⟨.map inner' entries', own'⟩
  | sequence {items items' : List Provider} {own own' : Option OwnTemplate} :
    List.Forall₂ (ItemAlike c text enter enter' given given' scopes scopes') items items' →
    ValueAlike ⟨.sequence items, own⟩ ⟨.sequence items', own'⟩

variable {c text enter enter' given given' scopes scopes'} {spot spot' : Spot}

theorem fillElement_alike (hspot : spot.Alike c spot') {item item' : Provider}
    (h : ItemAlike c text enter enter' given given' scopes scopes' item item') :
    Filling.Alike c text (fillElement enter spot given scopes item)
      (fillElement enter' spot' given' scopes' item') := by
  refine alike_bind h fun found found' hfound => ?_
  cases hfound with
  | none => exact hspot.fail (by decide)
  | some hserved =>
    refine alike_bind hserved fun part part' hpart => ?_
    cases hpart with
    | none => exact hspot.fail (by decide)
    | some henter => exact henter

theorem fillElements_alike (hspot : spot.Alike c spot') {items items' : List Provider}
    (h : List.Forall₂ (ItemAlike c text enter enter' given given' scopes scopes') items items') :
    Filling.Alike c (List.Forall₂ text) (fillElements enter spot given scopes items)
      (fillElements enter' spot' given' scopes' items') := by
  induction h with
  | nil => exact alike_pure .nil
  | cons hitem _ ih =>
    refine alike_bind (fillElement_alike hspot hitem) fun t t' ht => ?_
    exact alike_map ih fun ts ts' hts => .cons ht hts

theorem fillValue_alike (hspot : spot.Alike c spot')
    (hjoin : ∀ ts ts', List.Forall₂ text ts ts' →
      text (spot.place.joining.join ts) (spot'.place.joining.join ts'))
    {value value' : Provider}
    (h : Filling.Alike c
      (Option.Rel (ValueAlike c text enter enter' given given' scopes scopes'))
      (unwrap value) (unwrap value')) :
    Filling.Alike c text (fillValue enter spot given scopes value)
      (fillValue enter' spot' given' scopes' value') := by
  refine alike_bind h fun found found' hfound => ?_
  cases hfound with
  | none => exact hspot.fail (by decide)
  | some hvalue =>
    cases hvalue with
    | scalar ht hserved =>
      refine alike_bind hserved fun part part' hpart => ?_
      cases hpart with
      | none => exact alike_pure ht
      | some henter => exact henter
    | map hserved =>
      refine alike_bind hserved fun part part' hpart => ?_
      cases hpart with
      | none => exact hspot.fail (by decide)
      | some henter => exact henter
    | sequence hitems => exact alike_map (fillElements_alike hspot hitems) hjoin

end Values

/-! ### Filling a part -/

inductive CoreAlike (text : Text → Text → Prop) (value : Provider → Provider → Prop) :
    Core → Core → Prop
  | scalar {t t' : Text} : text t t' → CoreAlike text value (.scalar t) (.scalar t')
  | map {own own' : Option OwnTemplate} {entries entries' : List (Text × Provider)} :
    CoreAlike text value (.map own entries) (.map own' entries')
  | sequence {items items' : List Provider} : List.Forall₂ value items items' →
    CoreAlike text value (.sequence items) (.sequence items')

/-- Two unwrapped values have cores that are alike, also as scopes, and carry templates that give
parts alike. -/
structure FoundAlike (c : Comparison) (text : Text → Text → Prop)
    (value : Provider → Provider → Prop) (core : Core → Core → Prop) (part : Part → Part → Prop)
    (u u' : Unwrapped) : Prop where
  content : CoreAlike text value u.core u'.core
  scope : core u.core u'.core
  own : Option.Rel (fun own own' => Filling.Alike c part (ownPart own) (ownPart own')) u.own u'.own

structure PlaceAlike (text : Text → Text → Prop) (place place' : Placement) : Prop where
  wrap : ∀ t t', text t t' → text (place.wrap t) (place'.wrap t')
  join : ∀ ts ts', List.Forall₂ text ts ts' → text (place.joining.join ts) (place'.joining.join ts')

section Bodies

variable (c : Comparison) (text : Text → Text → Prop) (known : Text → Prop)
  (part : Part → Part → Prop) (templates templates' : TemplateMap) (source source' : Text)

inductive ActionAlike (place place' : Placement) : Action → Action → Prop
  | comment : ActionAlike place place' .comment .comment
  | insert {rewind : Nat} {name : Text} :
    Spot.Alike c ⟨source, place, name⟩ ⟨source', place', name⟩ →
    Filling.Alike c part (namedPart templates ⟨source, place, name⟩ name)
      (namedPart templates' ⟨source', place', name⟩ name) →
    ActionAlike place place' (.insert rewind name) (.insert rewind name)
  | value {rewind : Nat} {name : Text} {target target' : Target} : known name →
    Spot.Alike c ⟨source, place, name⟩ ⟨source', place', name⟩ →
    Filling.Alike c (Option.Rel part) (targetPart templates ⟨source, place, name⟩ target)
      (targetPart templates' ⟨source', place', name⟩ target') →
    ActionAlike place place' (.value rewind name target) (.value rewind name target')

/-- Two bodies have the same number of substitutions, which are alike one by one. They ask for known
names only. -/
inductive BodyAlike : Body → Body → Prop
  | tail {literal literal' : Text} : text literal literal' →
    BodyAlike (.tail literal) (.tail literal')
  | piece {literal literal' : Text} {place place' : Placement} {action action' : Action}
      {rest rest' : Body} : text literal literal' → PlaceAlike text place place' →
    ActionAlike c known part templates templates' source source' place place' action action' →
    BodyAlike rest rest' → BodyAlike (.piece literal place action rest)
      (.piece literal' place' action' rest')

end Bodies

/-- A likeness may take the texts as they are, and then it is equality of texts that is
preserved. -/
theorem Text.nil_alike : ([] : Text) = [] :=
  rfl

theorem Text.append_alike {s s' t t' : Text} (h : s = s') (h' : t = t') : s ++ t = s' ++ t' :=
  congrArg₂ (· ++ ·) h h'

/-- Relations that a fill respects, over two maps of templates. Each field is what one step of a
fill needs, and none is about a whole fill. -/
structure Likeness (templates templates' : TemplateMap) extends Comparison where
  text : Text → Text → Prop
  value : Provider → Provider → Prop
  core : Core → Core → Prop
  /-- The names that the parts ask for. Values under other names need not be alike. -/
  known : Text → Prop
  part : Part → Part → Prop
  stop_tooDeep : stop .tooDeep .tooDeep
  notes_outer : ∀ name depth, notes [.outer name depth] [.outer name depth]
  text_nil : text [] []
  text_append : ∀ {s s' t t'}, text s s' → text t t' → text (s ++ t) (s' ++ t')
  unwrap : ∀ {v v'}, value v v' → Filling.Alike toComparison
    (Option.Rel (FoundAlike toComparison text value core part)) (unwrap v) (unwrap v')
  lookup : ∀ {s s'}, core s s' → ∀ name, known name →
    Option.Rel value (s.lookup name) (s'.lookup name)
  body : ∀ {p p'}, part p p' →
    BodyAlike toComparison text known part templates templates' p.source p'.source p.body p'.body

namespace Likeness

variable {templates templates' : TemplateMap} (L : Likeness templates templates')

/-- Parts that are alike are entered alike from chains of scopes that are alike. This is what the
recursion has to keep. -/
def Enters (enter enter' : Enter) : Prop :=
  ∀ p p' scopes scopes', L.part p p' → List.Forall₂ L.core scopes scopes' →
    Alike L.toComparison L.text (enter p scopes) (enter' p' scopes')

variable {L} {enter enter' : Enter} {scopes scopes' : Scopes}

theorem find_alike (h : List.Forall₂ L.core scopes scopes') {name : Text} (hname : L.known name) :
    Option.Rel (fun found found' => L.value found.1 found'.1 ∧ found.2 = found'.2)
      (Scopes.find? name scopes) (Scopes.find? name scopes') := by
  induction h with
  | nil => exact .none
  | @cons scope scope' outer outer' hscope _ ih =>
    have hlookup := L.lookup hscope name hname
    simp only [Scopes.find?]
    generalize scope.lookup name = known, scope'.lookup name = known' at hlookup
    cases hlookup with
    | some hvalue => exact .some ⟨hvalue, rfl⟩
    | none =>
      generalize Scopes.find? name outer = found, Scopes.find? name outer' = found' at ih
      cases ih with
      | none => exact .none
      | some hfound => exact .some ⟨hfound.1, congrArg (· + 1) hfound.2⟩

theorem rewind_alike (h : List.Forall₂ L.core scopes scopes') (dots : Nat) :
    List.Forall₂ L.core (scopes.rewind dots) (scopes'.rewind dots) :=
  List.forall₂_drop _ h

theorem resolve_alike {spot spot' : Spot} (hspot : spot.Alike L.toComparison spot')
    (hname : spot.name = spot'.name) (hknown : L.known spot'.name) (dots : Nat)
    (h : List.Forall₂ L.core scopes scopes') :
    Alike L.toComparison L.value (resolve spot dots scopes) (resolve spot' dots scopes') := by
  have hfind := find_alike (rewind_alike h dots) hknown
  unfold resolve
  rw [hname]
  generalize Scopes.find? spot'.name (scopes.rewind dots) = found,
    Scopes.find? spot'.name (scopes'.rewind dots) = found' at hfind
  cases hfind with
  | none => exact hspot.fail (by decide)
  | @some found found' hfound =>
    obtain ⟨value, passed⟩ := found
    obtain ⟨value', passed'⟩ := found'
    obtain ⟨hvalue, rfl : passed = passed'⟩ := hfound
    dsimp only
    split
    · exact alike_bind (alike_note (L.notes_outer _ _) rfl) fun _ _ (_ : _ = _) => alike_pure hvalue
    · exact alike_pure hvalue

/-- The part that serves a value is the given one or else the value's own one, on both sides the
same of the two. -/
theorem served (henter : L.Enters enter enter') (hscopes : List.Forall₂ L.core scopes scopes')
    {given given' : Option Part} (hgiven : Option.Rel L.part given given') {u u' : Unwrapped}
    (h : FoundAlike L.toComparison L.text L.value L.core L.part u u') :
    ServedAlike L.toComparison L.text enter enter' given given' scopes scopes' u u' := by
  cases hgiven with
  | some hpart => exact alike_pure (.some (henter _ _ _ _ hpart (.cons h.scope hscopes)))
  | none =>
    obtain ⟨core, own⟩ := u
    obtain ⟨core', own'⟩ := u'
    obtain ⟨-, hscope, hown⟩ := h
    cases hown with
    | none => exact alike_pure .none
    | some hown =>
      exact alike_map hown fun p p' hp => .some (henter _ _ _ _ hp (.cons hscope hscopes))

theorem valueAlike (henter : L.Enters enter enter') (hscopes : List.Forall₂ L.core scopes scopes')
    {given given' : Option Part} (hgiven : Option.Rel L.part given given') {u u' : Unwrapped}
    (h : FoundAlike L.toComparison L.text L.value L.core L.part u u') :
    ValueAlike L.toComparison L.text enter enter' given given' scopes scopes' u u' := by
  have hserved := served henter hscopes hgiven h
  obtain ⟨core, own⟩ := u
  obtain ⟨core', own'⟩ := u'
  have hcontent := h.content
  cases hcontent with
  | scalar ht => exact .scalar ht hserved
  | map => exact .map hserved
  | sequence hitems =>
    refine .sequence (hitems.imp fun item item' hitem => ?_)
    refine (L.unwrap hitem).mono fun found found' hfound => ?_
    cases hfound with
    | none => exact .none
    | some hu => exact .some (served henter hscopes hgiven hu)

theorem fillAction_alike (henter : L.Enters enter enter') {source source' : Text}
    {place place' : Placement} (hplace : PlaceAlike L.text place place')
    (hscopes : List.Forall₂ L.core scopes scopes') {action action' : Action}
    (h : ActionAlike L.toComparison L.known L.part templates templates' source source' place place'
      action action') :
    Alike L.toComparison L.text (fillAction templates enter source place scopes action)
      (fillAction templates' enter' source' place' scopes' action') := by
  cases h with
  | comment => exact alike_pure L.text_nil
  | @insert rewind _ hspot hnamed =>
    refine alike_bind hnamed fun part part' hpart => ?_
    have hrewind := rewind_alike hscopes rewind
    generalize scopes.rewind rewind = inner, scopes'.rewind rewind = inner' at hrewind
    cases hrewind with
    | nil => exact hspot.fail (by decide)
    | cons hscope houter => exact henter _ _ _ _ hpart (.cons hscope houter)
  | value hknown hspot htarget =>
    refine alike_bind (resolve_alike hspot rfl hknown _ hscopes) fun v v' hv => ?_
    refine alike_bind htarget fun given given' hgiven => ?_
    refine fillValue_alike hspot hplace.join ?_
    refine (L.unwrap hv).mono fun found found' hfound => ?_
    cases hfound with
    | none => exact .none
    | some hu => exact .some (valueAlike henter hscopes hgiven hu)

theorem fillBody_alike (henter : L.Enters enter enter') {source source' : Text}
    (hscopes : List.Forall₂ L.core scopes scopes') {body body' : Body}
    (h : BodyAlike L.toComparison L.text L.known L.part templates templates' source source' body
      body') :
    Alike L.toComparison L.text (fillBody templates enter source scopes body)
      (fillBody templates' enter' source' scopes' body') := by
  induction h with
  | tail hliteral => exact alike_pure hliteral
  | piece hliteral hplace haction _ ih =>
    refine alike_bind (fillAction_alike henter hplace hscopes haction) fun t t' ht => ?_
    refine alike_map ih fun after after' hafter => ?_
    exact L.text_append (L.text_append hliteral (hplace.wrap _ _ ht)) hafter

/-- The limit counts the templates entered at the same time, so the induction is on the limit. The
body of a part is taken apart in the step. -/
theorem fillPart_alike (L : Likeness templates templates') (limit : Nat) :
    L.Enters (fillPart templates limit) (fillPart templates' limit) := by
  induction limit with
  | zero => exact fun _ _ _ _ _ _ => alike_stop L.stop_tooDeep
  | succ limit ih => exact fun p p' _ _ hp hscopes => fillBody_alike ih hscopes (L.body hp)

theorem fillRoot_alike (L : Likeness templates templates') (limit : Nat)
    {compiled compiled' : Compiled} (hpart : L.part compiled.part compiled'.part)
    (hempty : L.stop (.failed (.substitution ⟨.emptyValue, [], [], compiled.source⟩))
      (.failed (.substitution ⟨.emptyValue, [], [], compiled'.source⟩)))
    {data data' : Provider} (hdata : L.value data data') :
    Alike L.toComparison L.text (fillRoot templates limit compiled data)
      (fillRoot templates' limit compiled' data') := by
  refine alike_bind (L.unwrap hdata) fun found found' hfound => ?_
  cases hfound with
  | none => exact alike_stop hempty
  | some hu => exact fillPart_alike L limit _ _ _ _ hpart (.cons hu.scope .nil)

end Likeness

end Stencil
