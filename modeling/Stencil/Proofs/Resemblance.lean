import Stencil.Proofs.Likeness
import Stencil.Proofs.Relocation

/-!
# Bodies that resemble each other

Two bodies resemble each other when they hold the same literals and the same actions at places that
are the same in some respect. A link of a dotted name and the inline template that consists of the
link count as the same target, because a fill enters the same body for both. Filling bodies that
resemble each other gives the same text, or the same error in that respect.
-/
namespace Stencil

/-- The body that a target brings along, at a place: an inline template, or that of the next
link. -/
def Target.body? (place : Placement) : Target → Option Body
  | .own => none
  | .named _ => none
  | .inline body => some body
  | .link name target => some (.ofLink place name target)

def Action.body? (place : Placement) : Action → Option Body
  | .comment => none
  | .insert _ _ => none
  | .value _ _ target => target.body? place

theorem targetPart_of_body? {templates : TemplateMap} {spot : Spot} {target : Target} {body : Body}
    (h : target.body? spot.place = some body) :
    targetPart templates spot target = pure (some ⟨spot.source, body⟩) := by
  cases target with
  | own => simp [Target.body?] at h
  | named name => simp [Target.body?] at h
  | inline inner =>
    obtain rfl : inner = body := by simpa [Target.body?] using h
    rfl
  | link name target =>
    obtain rfl : Body.ofLink spot.place name target = body := by simpa [Target.body?] using h
    rfl

/-! ### Places -/

mutual

/-- The places of all substitutions, in the order of the source and with those of inline
templates. -/
def Body.places : Body → List Placement
  | .tail _ => []
  | .piece _ place action rest => place :: (action.places ++ rest.places)

def Action.places : Action → List Placement
  | .comment => []
  | .insert _ _ => []
  | .value _ _ target => target.places

def Target.places : Target → List Placement
  | .own => []
  | .named _ => []
  | .inline body => body.places
  | .link _ target => target.places

end

@[simp] theorem Target.places_ofLinks (names : List Text) (target : Target) :
    (Target.ofLinks names target).places = target.places := by
  induction names with
  | nil => rfl
  | cons name names ih => exact ih

/-! ### Resemblance -/

inductive Body.Resembles (same : Placement → Placement → Prop) : Body → Body → Prop
  | tail (literal : Text) : Resembles same (.tail literal) (.tail literal)
  /-- The same action, which brings no body along, at two places that count as the same. -/
  | leaf {literal : Text} {place place' : Placement} {action : Action} {rest rest' : Body} :
    same place place' → action.body? place = none → Resembles same rest rest' →
    Resembles same (.piece literal place action rest) (.piece literal place' action rest')
  /-- Values of the same name, for bodies that resemble each other, however the two targets come to
  these bodies. -/
  | node {literal : Text} {place place' : Placement} {rewind : Nat} {name : Text}
      {target target' : Target} {body body' rest rest' : Body} :
    same place place' → target.body? place = some body → target'.body? place' = some body' →
    Resembles same body body' → Resembles same rest rest' →
    Resembles same (.piece literal place (.value rewind name target) rest)
      (.piece literal place' (.value rewind name target') rest')

/-- At two places, two targets are the same without a body, or their bodies resemble each other. -/
def Target.Resembles (same : Placement → Placement → Prop) (place place' : Placement)
    (target target' : Target) : Prop :=
  (target.body? place = none ∧ target = target') ∨
    ∃ body body', target.body? place = some body ∧ target'.body? place' = some body' ∧
      body.Resembles same body'

namespace Body.Resembles

variable {same : Placement → Placement → Prop}

theorem value {literal : Text} {place place' : Placement} {rewind : Nat} {name : Text}
    {target target' : Target} {rest rest' : Body} (hplace : same place place')
    (htarget : target.Resembles same place place' target') (hrest : Resembles same rest rest') :
    Resembles same (.piece literal place (.value rewind name target) rest)
      (.piece literal place' (.value rewind name target') rest') := by
  rcases htarget with ⟨hnone, rfl⟩ | ⟨body, body', hbody, hbody', h⟩
  · exact .leaf hplace hnone hrest
  · exact .node hplace hbody hbody' h hrest

mutual

/-- A body at one offset resembles itself at another one, if its places there are the same. The
induction goes into inline templates. -/
theorem shift (j k : Nat)
    (hinner : ∀ place place', same place place' → same place.inner place'.inner)
    (body : Body) (h : ∀ place ∈ body.places, same (place.shift j) (place.shift k)) :
    Resembles same (body.shift j) (body.shift k) := by
  cases body with
  | tail literal => exact .tail literal
  | piece literal place action rest =>
    have hplace := h place (by simp [Body.places])
    have hrest := shift j k hinner rest fun p hp => h p (by simp [Body.places, hp])
    cases action with
    | comment => exact .leaf hplace rfl hrest
    | insert rewind name => exact .leaf hplace rfl hrest
    | value rewind name target =>
      refine value hplace (shift_target j k hinner target place hplace fun p hp => h p ?_) hrest
      simp [Body.places, Action.places, hp]

theorem shift_target (j k : Nat)
    (hinner : ∀ place place', same place place' → same place.inner place'.inner)
    (target : Target) (place : Placement) (hplace : same (place.shift j) (place.shift k))
    (h : ∀ p ∈ target.places, same (p.shift j) (p.shift k)) :
    (target.shift j).Resembles same (place.shift j) (place.shift k) (target.shift k) := by
  cases target with
  | own => exact .inl ⟨rfl, rfl⟩
  | named name => exact .inl ⟨rfl, rfl⟩
  | inline body => exact .inr ⟨body.shift j, body.shift k, rfl, rfl, shift j k hinner body h⟩
  | link name target =>
    have hplace' := hinner _ _ hplace
    have hnext := shift_target j k hinner target place.inner hplace' h
    exact .inr ⟨_, _, rfl, rfl, value hplace' hnext (.tail [])⟩

end

/-- A body resembles itself moved, if its places are the same when they move. -/
theorem moved (k : Nat) (hinner : ∀ place place', same place place' → same place.inner place'.inner)
    (body : Body) (h : ∀ place ∈ body.places, same place (place.shift k)) :
    Resembles same body (body.shift k) := by
  have hshift := shift 0 k hinner body h
  rwa [Body.shift_zero] at hshift

/-- A body resembles itself, if its places are the same as themselves, which is not always so for
places in two sources. -/
theorem self (hinner : ∀ place place', same place place' → same place.inner place'.inner)
    (body : Body) (h : ∀ place ∈ body.places, same place place) : Resembles same body body := by
  have hmoved := moved 0 hinner body h
  rwa [Body.shift_zero] at hmoved

end Body.Resembles

/-! ### Filling -/

/-- What `view` shows of a reason to stop. It changes only the errors of substitutions, as no others
point at a template. -/
def Stop.through (view : SubstitutionError → SubstitutionError) : Stop → Stop
  | .failed (.substitution error) => .failed (.substitution (view error))
  | .failed (.malformed error) => .failed (.malformed error)
  | .failed (.malformedNamed name error) => .failed (.malformedNamed name error)
  | .tooDeep => .tooDeep

@[simp] theorem Stop.through_id (stop : Stop) : stop.through id = stop := by
  cases stop with
  | tooDeep => rfl
  | failed error => cases error <;> rfl

/-- Two places in two sources with the same text around them, where the same error looks the same
through `view`. -/
structure Placement.Agrees (view : SubstitutionError → SubstitutionError) (source source' : Text)
    (place place' : Placement) : Prop where
  joining : place.joining = place'.joining
  leading : place.leading = place'.leading
  trailing : place.trailing = place'.trailing
  error : ∀ name fault, view (Spot.error ⟨source, place, name⟩ fault) =
    view (Spot.error ⟨source', place', name⟩ fault)

namespace Placement.Agrees

variable {view : SubstitutionError → SubstitutionError} {source source' : Text}
  {place place' : Placement}

theorem refl (place : Placement) : Agrees view source source place place :=
  ⟨rfl, rfl, rfl, fun _ _ => rfl⟩

theorem inner (h : Agrees view source source' place place') :
    Agrees view source source' place.inner place'.inner :=
  ⟨h.joining, rfl, rfl, h.error⟩

theorem placeAlike (h : Agrees view source source' place place') : PlaceAlike Eq place place' where
  wrap t t' ht := by
    subst ht
    cases t with
    | nil => rfl
    | cons c t => simp [Placement.wrap, h.leading, h.trailing]
  join ts ts' hts := by
    rw [List.forall₂_eq_eq_eq] at hts
    rw [hts, h.joining]

end Placement.Agrees

/-- Data for two fills with the same texts and the same templates at corresponding positions. -/
structure Scenery (c : Comparison) where
  value : Provider → Provider → Prop
  core : Core → Core → Prop
  unwrap : ∀ {v v'}, value v v' → Filling.Alike c
    (Option.Rel fun u u' => CoreAlike Eq value u.core u'.core ∧ core u.core u'.core ∧
      u.own = u'.own) (Filling.unwrap v) (Filling.unwrap v')
  lookup : ∀ {s s'}, core s s' → ∀ name, Option.Rel value (s.lookup name) (s'.lookup name)

/-- A comparison that takes all notes as they are, and errors as `view` shows them. The counters are
left open. -/
structure Comparison.Through (view : SubstitutionError → SubstitutionError) (c : Comparison) :
    Prop where
  stop : ∀ {s s'}, s.through view = s'.through view → c.stop s s'
  notes : ∀ ns, c.notes ns ns

/-- Reports are compared as they are, in their notes, errors and counters. -/
def Comparison.exact : Comparison where
  stop := Eq
  notes := Eq
  tally := Eq
  notes_nil := rfl
  notes_append h h' := by rw [h, h']

theorem Comparison.exact_through : Comparison.exact.Through id where
  stop {s s'} h := by
    rwa [Stop.through_id, Stop.through_id] at h
  notes _ := rfl

/-- Parts whose bodies resemble each other, with places that agree in their two sources. -/
def PartResembles (view : SubstitutionError → SubstitutionError) (p p' : Part) : Prop :=
  p.body.Resembles (Placement.Agrees view p.source p'.source) p'.body

section Fill

variable {view : SubstitutionError → SubstitutionError} {c : Comparison} (hc : c.Through view)

theorem PartResembles.refl (p : Part) : PartResembles view p p := by
  apply Body.Resembles.self
  · exact fun _ _ h => h.inner
  · exact fun place _ => .refl place

include hc

open Filling

theorem stop_of_agrees {source source' : Text} {place place' : Placement}
    (h : Placement.Agrees view source source' place place') (name : Text) (fault : FillFault) :
    c.stop (.failed (.substitution (Spot.error ⟨source, place, name⟩ fault)))
      (.failed (.substitution (Spot.error ⟨source', place', name⟩ fault))) := by
  apply hc.stop
  simp only [Stop.through, h.error]

theorem spotAlike_of_agrees {source source' : Text} {place place' : Placement}
    (h : Placement.Agrees view source source' place place') (name : Text) :
    Spot.Alike c ⟨source, place, name⟩ ⟨source', place', name⟩ := by
  intro fault _
  exact stop_of_agrees hc h name fault

theorem namedPart_alike (templates : TemplateMap) {source source' : Text} {place place' : Placement}
    (h : Placement.Agrees view source source' place place') (name other : Text) :
    Alike c (PartResembles view) (namedPart templates ⟨source, place, other⟩ name)
      (namedPart templates ⟨source', place', other⟩ name) := by
  unfold namedPart
  cases templates.get? name with
  | none => exact alike_stop (stop_of_agrees hc h name .missingTemplate)
  | some template =>
    exact rootPart_alike rfl (hc.notes _) (fun _ _ => hc.stop rfl)
      fun compiled _ => PartResembles.refl compiled.part

theorem ownPart_alike (own : OwnTemplate) :
    Alike c (PartResembles view) (ownPart own) (ownPart own) := by
  unfold ownPart
  exact rootPart_alike rfl (hc.notes _) (fun _ _ => hc.stop rfl)
    fun compiled _ => PartResembles.refl compiled.part

theorem bodyAlike_of_resembles (templates : TemplateMap) {source source' : Text} {body body' : Body}
    (h : body.Resembles (Placement.Agrees view source source') body') :
    BodyAlike c Eq (fun _ => True) (PartResembles view) templates templates source source' body
      body' := by
  induction h with
  | tail literal => exact .tail rfl
  | @leaf _ place place' action _ _ hplace hbody _ ih =>
    refine .piece rfl hplace.placeAlike ?_ ih
    cases action with
    | comment => exact .comment
    | insert rewind name =>
      exact .insert (spotAlike_of_agrees hc hplace name) (namedPart_alike hc templates hplace _ _)
    | value rewind name target =>
      refine .value trivial (spotAlike_of_agrees hc hplace name) ?_
      cases target with
      | own => exact alike_pure .none
      | named other =>
        exact alike_map (namedPart_alike hc templates hplace _ _) fun _ _ hpart => .some hpart
      | inline inner => simp [Action.body?, Target.body?] at hbody
      | link name target => simp [Action.body?, Target.body?] at hbody
  | node hplace hbody hbody' hresembles _ _ ih =>
    refine .piece rfl hplace.placeAlike (.value trivial (spotAlike_of_agrees hc hplace _) ?_) ih
    rw [targetPart_of_body? hbody, targetPart_of_body? hbody']
    exact alike_pure (.some hresembles)

/-- Over the same templates, fills are alike when their data are and when their bodies resemble
each other. -/
def Likeness.ofScenery (templates : TemplateMap) (S : Scenery c) :
    Likeness templates templates where
  toComparison := c
  text := Eq
  value := S.value
  core := S.core
  known _ := True
  part := PartResembles view
  stop_tooDeep := hc.stop rfl
  notes_outer _ _ := hc.notes _
  text_nil := Text.nil_alike
  text_append := Text.append_alike
  unwrap hv := (S.unwrap hv).mono fun found found' hfound => by
    cases hfound with
    | none => exact .none
    | @some u u' h =>
      obtain ⟨core, own⟩ := u
      obtain ⟨core', own'⟩ := u'
      obtain ⟨hcontent, hscope, rfl : own = own'⟩ := h
      refine .some ⟨hcontent, hscope, ?_⟩
      cases own with
      | none => exact .none
      | some own => exact .some (ownPart_alike hc own)
  lookup h name _ := S.lookup h name
  body := bodyAlike_of_resembles hc templates

end Fill

/-! ### The same data -/

/-- Errors are compared as `view` shows them, and notes are left out. The counters have to be the
same. -/
def Comparison.upTo (view : SubstitutionError → SubstitutionError) : Comparison where
  stop s s' := s.through view = s'.through view
  notes _ _ := True
  tally := Eq
  notes_nil := trivial
  notes_append _ _ := trivial

theorem Comparison.upTo_through (view : SubstitutionError → SubstitutionError) :
    (upTo view).Through view :=
  ⟨fun h => h, fun _ => trivial⟩

theorem CoreAlike.refl (core : Core) : CoreAlike Eq Eq core core := by
  cases core with
  | scalar text => exact .scalar rfl
  | map own entries => exact .map
  | sequence items => exact .sequence (List.forall₂_same.2 fun _ _ => rfl)

/-- The same data twice, which is what two fills of different templates have in common. -/
def Scenery.same (view : SubstitutionError → SubstitutionError) :
    Scenery (Comparison.upTo view) where
  value := Eq
  core := Eq
  unwrap := by
    rintro v _ rfl t _ rfl
    refine ⟨.ok ?_, trivial, rfl⟩
    cases (v.unwrap t).1 with
    | none => exact .none
    | some u => exact .some ⟨.refl u.core, rfl, rfl⟩
  lookup := by
    rintro s _ rfl name
    cases s.lookup name with
    | none => exact .none
    | some v => exact .some rfl

/-- Over the same templates and data, fills are alike when their bodies resemble each other. -/
def Likeness.same (templates : TemplateMap) (view : SubstitutionError → SubstitutionError) :
    Likeness templates templates :=
  .ofScenery (Comparison.upTo_through view) templates (Scenery.same view)

/-- What a result is when its error is seen through `view`. A text is not touched. -/
def seen {α : Type} (view : SubstitutionError → SubstitutionError)
    (result : Except Stop α) : Except Stop α :=
  result.mapError (Stop.through view)

theorem Filling.Alike.through {α : Type} {view : SubstitutionError → SubstitutionError}
    {p q : Filling α} (h : Filling.Alike (Comparison.upTo view) Eq p q) (t : Tally) :
    seen view (p.run t).result = seen view (q.run t).result := by
  have hresult := (h t t rfl).result
  generalize (p.run t).result = r, (q.run t).result = r' at hresult
  cases hresult with
  | ok h => rw [h]
  | error h => exact congrArg Except.error h

theorem compile_eq_ok {source : Text} {compiled : Compiled} :
    compile source = .ok compiled ↔
      compiled.source = source ∧ (compileSource 0 source).result = .ok compiled.root := by
  obtain ⟨other, root⟩ := compiled
  unfold compile
  cases (compileSource 0 source).result with
  | error e => simp [Except.map]
  | ok body => simp [Except.map, and_comm, eq_comm]

theorem compile_of_compileSource {source : Text} {root : Body}
    (h : (compileSource 0 source).result = .ok root) : compile source = .ok ⟨source, root⟩ :=
  compile_eq_ok.2 ⟨rfl, h⟩

theorem exists_compile {source : Text} (h : (compile source).toOption.isSome = true) :
    ∃ compiled, compile source = .ok compiled := by
  cases hcompile : compile source with
  | error e =>
    rw [hcompile] at h
    cases h
  | ok compiled => exact ⟨compiled, rfl⟩

theorem part_of_compile {source : Text} {compiled : Compiled} (h : compile source = .ok compiled) :
    compiled.part = ⟨source, compiled.root⟩ := by
  rw [Compiled.part, (compile_eq_ok.1 h).1]

/-- What comes of filling a source that was not compiled before, without the notes and the
counters. -/
def resultOf (source : Text) (limit : Nat) (templates : TemplateMap) (data : Provider)
    (t : Tally) : Except Stop Text :=
  (((Template.new source).fillWithin limit templates data).run t).result

theorem resultOf_of_compile {source : Text} {compiled : Compiled}
    (h : compile source = .ok compiled) (limit : Nat) (templates : TemplateMap) (data : Provider)
    (t : Tally) :
    resultOf source limit templates data t =
      ((fillRoot templates limit compiled data).run t).result := by
  rw [resultOf, Template.fillWithin, Template.compile, Template.new, h]
  rfl

theorem resultOf_of_error {source : Text} {error : SyntaxError} (h : compile source = .error error)
    (limit : Nat) (templates : TemplateMap) (data : Provider) (t : Tally) :
    resultOf source limit templates data t = .error (.failed (.malformed error)) := by
  rw [resultOf, Template.fillWithin, Template.compile, Template.new, h]
  rfl

/-- Two sources are filled in the same way when their bodies resemble each other, up to what `view`
hides of an error. -/
theorem seen_fillWithin {view : SubstitutionError → SubstitutionError} {source source' : Text}
    {compiled compiled' : Compiled} (h : compile source = .ok compiled)
    (h' : compile source' = .ok compiled')
    (hroot : compiled.root.Resembles (Placement.Agrees view source source') compiled'.root)
    (hempty : view ⟨.emptyValue, [], [], source⟩ = view ⟨.emptyValue, [], [], source'⟩)
    (templates : TemplateMap) (limit : Nat) (data : Provider) (t : Tally) :
    seen view (resultOf source limit templates data t) =
      seen view (resultOf source' limit templates data t) := by
  let L := Likeness.same templates view
  have hpart : PartResembles view compiled.part compiled'.part := by
    rw [part_of_compile h, part_of_compile h']
    exact hroot
  have hstop : L.stop (.failed (.substitution ⟨.emptyValue, [], [], compiled.source⟩))
      (.failed (.substitution ⟨.emptyValue, [], [], compiled'.source⟩)) := by
    rw [(compile_eq_ok.1 h).1, (compile_eq_ok.1 h').1]
    exact congrArg (fun error => Stop.failed (.substitution error)) hempty
  rw [resultOf_of_compile h, resultOf_of_compile h']
  exact (L.fillRoot_alike limit hpart hstop rfl).through t

/-! ### What the errors keep -/

/-- An error without the substitution and the template that it points at: its kind and the name are
left. -/
def SubstitutionError.gist (error : SubstitutionError) : SubstitutionError :=
  { error with substitution := [], template := [] }

open SubstitutionError

theorem Placement.agrees_gist {source source' : Text} {place place' : Placement}
    (hjoining : place.joining = place'.joining) (hleading : place.leading = place'.leading)
    (htrailing : place.trailing = place'.trailing) : Agrees gist source source' place place' :=
  ⟨hjoining, hleading, htrailing, fun _ _ => rfl⟩

end Stencil
