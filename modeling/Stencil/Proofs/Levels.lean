import Mathlib.Logic.Relation
import Stencil.Proofs.OwnTemplates
import Stencil.Proofs.Pieces
import Stencil.Proofs.TemplateSupply

/-!
# The levels of a fill

A fill enters a part in a chain of scopes. That is a level: its substitutions either fail there or
enter further levels. So a fill that stops does so at a level to which a path of entries leads, and
what can go wrong there can be read off the level alone.
-/
namespace Stencil

namespace Filling

variable {α β : Type} {p : Filling α} {next : α → Filling β} {s : Stop}

/-- For some state of the counters, this is the value at the end. Other states may give other
values. -/
def Gives (p : Filling α) (a : α) : Prop :=
  ∃ t, (p.run t).result = .ok a

/-- For some state of the counters, there is no value for this reason. Nothing is said of other
states. -/
def Stops (p : Filling α) (s : Stop) : Prop :=
  ∃ t, (p.run t).result = .error s

theorem eq_of_gives_pure {a b : α} (h : (pure a : Filling α).Gives b) : a = b := by
  obtain ⟨t, h⟩ := h
  exact Except.ok.inj h

theorem not_stops_pure {a : α} : ¬ (pure a : Filling α).Stops s := by
  rintro ⟨t, h⟩
  cases h

theorem eq_of_stops_stop {reason : Stop} (h : (stop reason : Filling α).Stops s) : s = reason := by
  obtain ⟨t, h⟩ := h
  exact (Except.error.inj h).symm

theorem not_gives_stop {reason : Stop} {a : α} : ¬ (stop reason : Filling α).Gives a := by
  rintro ⟨t, h⟩
  cases h

theorem gives_bind {b : β} (h : (p >>= next).Gives b) : ∃ a, p.Gives a ∧ (next a).Gives b := by
  obtain ⟨t, h⟩ := h
  rw [run_bind] at h
  cases hp : (p.run t).result with
  | error reason => rw [hp] at h; cases h
  | ok a =>
    rw [hp] at h
    exact ⟨a, ⟨t, hp⟩, ⟨_, h⟩⟩

theorem stops_bind (h : (p >>= next).Stops s) : p.Stops s ∨ ∃ a, p.Gives a ∧ (next a).Stops s := by
  obtain ⟨t, h⟩ := h
  rw [run_bind] at h
  cases hp : (p.run t).result with
  | error reason =>
    rw [hp] at h
    exact .inl ⟨t, hp.trans (congrArg Except.error (Except.error.inj h))⟩
  | ok a =>
    rw [hp] at h
    exact .inr ⟨a, ⟨t, hp⟩, ⟨_, h⟩⟩

theorem gives_map {f : α → β} {b : β} (h : (f <$> p).Gives b) : ∃ a, p.Gives a ∧ f a = b := by
  rw [map_eq_bind] at h
  obtain ⟨a, ha, hb⟩ := gives_bind h
  exact ⟨a, ha, eq_of_gives_pure hb⟩

theorem stops_map {f : α → β} (h : (f <$> p).Stops s) : p.Stops s := by
  rw [map_eq_bind] at h
  exact (stops_bind h).resolve_right fun ⟨_, _, ha⟩ => not_stops_pure ha

/-- Notes and wrappers never stop a fill, so that what stops it comes after them. -/
theorem stops_note_bind {n : Note} {q : Filling β} (h : (note n >>= fun _ => q).Stops s) :
    q.Stops s := by
  rcases stops_bind h with ⟨_, h⟩ | ⟨_, _, h⟩
  · cases h
  · exact h

theorem stops_unwrap_bind {v : Provider} {next : Option Unwrapped → Filling β}
    (h : (unwrap v >>= next).Stops s) : ∃ t, (next (v.unwrap t).1).Stops s := by
  rcases stops_bind h with ⟨_, h⟩ | ⟨found, ⟨t, hfound⟩, h⟩
  · cases h
  · rw [← Except.ok.inj hfound] at h
    exact ⟨t, h⟩

end Filling

open Filling

/-- There is nothing under the wrappers of a provider, for some state of the counters. -/
def Provider.Lacks (v : Provider) : Prop :=
  ∃ t, (v.unwrap t).1 = none

/-- A part with the scopes that it is filled in. A fill goes from one such level to the next and
comes back. -/
structure Level where
  part : Part
  scopes : Scopes

/-! ### What a substitution enters -/

/-- The name of the template that a substitution asks for itself. In a dotted name only the last
link asks for one. -/
def Action.asked? : Action → Option Text
  | .insert _ name => some name
  | .value _ _ (.named name) => some name
  | _ => none

section

variable (templates : TemplateMap) (source : Text) (place : Placement)

/-- The part for a value that carries such a template, or none. A part that the target has itself
comes first. -/
inductive Target.Chooses : Target → Option OwnTemplate → Part → Prop
  | own {own : OwnTemplate} {compiled : Compiled} : own.template.compile = .ok compiled →
    Chooses .own (some own) compiled.part
  | named {name : Text} {own : Option OwnTemplate} {template : Template} {compiled : Compiled} :
    templates.get? name = some template → template.compile = .ok compiled →
    Chooses (.named name) own compiled.part
  | inline {body : Body} {own : Option OwnTemplate} : Chooses (.inline body) own ⟨source, body⟩
  | link {name : Text} {target : Target} {own : Option OwnTemplate} :
    Chooses (.link name target) own ⟨source, .ofLink place name target⟩

variable (scopes : Scopes)

/-- A substitution in these scopes may enter this level, depending on what the counters give. -/
inductive Action.Enters : Action → Level → Prop
  | insert {rewind : Nat} {name : Text} {template : Template} {compiled : Compiled} :
    templates.get? name = some template → template.compile = .ok compiled →
    scopes.rewind rewind ≠ [] → Enters (.insert rewind name) ⟨compiled.part, scopes.rewind rewind⟩
  | value {rewind passed : Nat} {name : Text} {target : Target} {v : Provider} {u : Unwrapped}
      {part : Part} : (scopes.rewind rewind).find? name = some (v, passed) → v.Serves u →
    target.Chooses templates source place u.own part →
    Enters (.value rewind name target) ⟨part, u.core :: scopes⟩

/-- A substitution in these scopes may itself fail with this error, before it enters any level. -/
inductive Action.Faults : Action → FillError → Prop
  | missing {action : Action} {name : Text} : action.asked? = some name →
    templates.get? name = none →
    Faults action (.substitution (Spot.error ⟨source, place, name⟩ .missingTemplate))
  | malformedNamed {action : Action} {name : Text} {template : Template} {e : SyntaxError} :
    action.asked? = some name → templates.get? name = some template →
    template.compile = .error e → Faults action (.malformedNamed name e)
  | noScope {rewind : Nat} {name : Text} : scopes.rewind rewind = [] →
    Faults (.insert rewind name) (.substitution (Spot.error ⟨source, place, name⟩ .unresolved))
  | unresolved {rewind : Nat} {name : Text} {target : Target} :
    (scopes.rewind rewind).find? name = none → Faults (.value rewind name target)
      (.substitution (Spot.error ⟨source, place, name⟩ .unresolved))
  | empty {rewind passed : Nat} {name : Text} {target : Target} {v : Provider} :
    (scopes.rewind rewind).find? name = some (v, passed) → v.Lacks →
    Faults (.value rewind name target)
      (.substitution (Spot.error ⟨source, place, name⟩ .emptyValue))
  | emptyElement {rewind passed : Nat} {name : Text} {target : Target} {v item : Provider}
      {items : List Provider} {own : Option OwnTemplate} :
    (scopes.rewind rewind).find? name = some (v, passed) → v.Yields ⟨.sequence items, own⟩ →
    item ∈ items → item.Lacks → Faults (.value rewind name target)
      (.substitution (Spot.error ⟨source, place, name⟩ .emptyValue))
  | malformed {rewind passed : Nat} {name : Text} {v : Provider} {u : Unwrapped}
      {own : OwnTemplate} {e : SyntaxError} :
    (scopes.rewind rewind).find? name = some (v, passed) → v.Serves u → u.own = some own →
    own.template.compile = .error e → Faults (.value rewind name .own) (.malformed e)
  | noTemplate {rewind passed : Nat} {name : Text} {v : Provider} {inner : Option OwnTemplate}
      {entries : List (Text × Provider)} :
    (scopes.rewind rewind).find? name = some (v, passed) → v.Yields ⟨.map inner entries, none⟩ →
    Faults (.value rewind name .own)
      (.substitution (Spot.error ⟨source, place, name⟩ .noTemplate))
  | noElementTemplate {rewind passed : Nat} {name : Text} {v item : Provider}
      {items : List Provider} {own : Option OwnTemplate} {core : Core} :
    (scopes.rewind rewind).find? name = some (v, passed) → v.Yields ⟨.sequence items, own⟩ →
    item ∈ items → item.Yields ⟨core, none⟩ → Faults (.value rewind name .own)
      (.substitution (Spot.error ⟨source, place, name⟩ .noElementTemplate))

end

namespace Level

variable (templates : TemplateMap)

/-- A substitution of the first level may enter the second one. Paths of calls are what a fill can
go along. -/
def Calls (level inner : Level) : Prop :=
  ∃ piece ∈ level.part.body.pieces,
    piece.action.Enters templates level.part.source piece.place level.scopes inner

/-- A substitution of the level may itself fail with this error, without any other level to
blame. -/
def Faults (level : Level) (e : FillError) : Prop :=
  ∃ piece ∈ level.part.body.pieces,
    piece.action.Faults templates level.part.source piece.place level.scopes e

end Level

/-! ### Where a fill stops -/

section

variable {templates : TemplateMap} {enter : Enter} {source : Text} {place : Placement}
  {scopes : Scopes} {s : Stop}

/-- A template on the way is either compiled or at fault, and nothing else can happen there. -/
theorem gives_rootPart {n : Note} {template : Template} {failure : SyntaxError → FillError}
    {part : Part}
    (h : Gives (do note n
                   let compiled ← ofExcept (template.compile.mapError failure)
                   pure compiled.part) part) :
    ∃ compiled, template.compile = .ok compiled ∧ part = compiled.part := by
  obtain ⟨_, -, h⟩ := gives_bind h
  cases hcompile : template.compile with
  | error e =>
    rw [hcompile] at h
    obtain ⟨_, h, -⟩ := gives_bind h
    exact absurd h not_gives_stop
  | ok compiled =>
    rw [hcompile] at h
    exact ⟨compiled, rfl, (eq_of_gives_pure h).symm⟩

theorem stops_rootPart {n : Note} {template : Template} {failure : SyntaxError → FillError}
    (h : Stops (do note n
                   let compiled ← ofExcept (template.compile.mapError failure)
                   pure compiled.part) s) :
    ∃ e, template.compile = .error e ∧ s = .failed (failure e) := by
  have h := stops_note_bind h
  cases hcompile : template.compile with
  | ok compiled =>
    rw [hcompile] at h
    exact absurd h not_stops_pure
  | error e =>
    rw [hcompile] at h
    rcases stops_bind h with h | ⟨_, h, -⟩
    · exact ⟨e, rfl, eq_of_stops_stop h⟩
    · exact absurd h not_gives_stop

theorem gives_namedPart {spot : Spot} {name : Text} {part : Part}
    (h : (namedPart templates spot name).Gives part) :
    ∃ template compiled, templates.get? name = some template ∧
      template.compile = .ok compiled ∧ part = compiled.part := by
  unfold namedPart at h
  cases hget : templates.get? name with
  | none =>
    rw [hget] at h
    exact absurd h not_gives_stop
  | some template =>
    rw [hget] at h
    obtain ⟨compiled, hcompile, hpart⟩ := gives_rootPart h
    exact ⟨template, compiled, rfl, hcompile, hpart⟩

/-- What a target gives to fill its value into: nothing, if the value has to carry it, and a part
with a template otherwise. -/
def Target.Supplied (templates : TemplateMap) (source : Text) (place : Placement) (target : Target)
    (given : Option Part) : Prop :=
  target = .own ∧ given = none ∨
    ∃ part, given = some part ∧ ∀ own, target.Chooses templates source place own part

theorem supplied_of_gives {name : Text} {target : Target} {given : Option Part}
    (h : (targetPart templates ⟨source, place, name⟩ target).Gives given) :
    target.Supplied templates source place given := by
  cases target with
  | own => exact .inl ⟨rfl, (eq_of_gives_pure h).symm⟩
  | named other =>
    obtain ⟨part, hpart, rfl⟩ := gives_map h
    obtain ⟨template, compiled, hget, hcompile, rfl⟩ := gives_namedPart hpart
    exact .inr ⟨_, rfl, fun own => .named hget hcompile⟩
  | inline body => exact .inr ⟨_, (eq_of_gives_pure h).symm, fun own => .inline⟩
  | link other target => exact .inr ⟨_, (eq_of_gives_pure h).symm, fun own => .link⟩

/-- Why a substitution stops the fill: by its own fault, or inside a level that it enters. There is
no third way. -/
inductive Action.StopsBy (templates : TemplateMap) (enter : Enter) (source : Text)
    (place : Placement) (scopes : Scopes) (action : Action) : Stop → Prop
  | fault {e : FillError} : action.Faults templates source place scopes e →
    StopsBy templates enter source place scopes action (.failed e)
  | inner {level : Level} {s : Stop} : action.Enters templates source place scopes level →
    (enter level.part level.scopes).Stops s →
    StopsBy templates enter source place scopes action s

theorem stopsBy_of_namedPart {other name : Text} {action : Action}
    (haction : action.asked? = some name)
    (h : (namedPart templates ⟨source, place, other⟩ name).Stops s) :
    action.StopsBy templates enter source place scopes s := by
  unfold namedPart at h
  cases hget : templates.get? name with
  | none =>
    rw [hget] at h
    rw [eq_of_stops_stop h]
    exact .fault (.missing haction hget)
  | some template =>
    rw [hget] at h
    obtain ⟨e, hcompile, rfl⟩ := stops_rootPart h
    exact .fault (.malformedNamed haction hget hcompile)

theorem stopsBy_of_targetPart {rewind : Nat} {name : Text} {target : Target}
    (h : (targetPart templates ⟨source, place, name⟩ target).Stops s) :
    (Action.value rewind name target).StopsBy templates enter source place scopes s := by
  cases target with
  | own | inline body | link other target => exact absurd h not_stops_pure
  | named other => exact stopsBy_of_namedPart rfl (stops_map h)

section Values

variable {rewind passed : Nat} {name : Text} {target : Target} {given : Option Part} {v : Provider}

/-- A value that is served stops the fill, unless there is no template for it, only inside of the
level that it is filled in. -/
theorem stopsBy_of_served {u : Unwrapped} {missing : Filling Text}
    (hfind : (scopes.rewind rewind).find? name = some (v, passed))
    (hgiven : target.Supplied templates source place given) (hserves : v.Serves u)
    (h : (choosePart given u.own >>= fun chosen => match chosen with
      | none => missing
      | some part => enter part (u.core :: scopes)).Stops s) :
    (Action.value rewind name target).StopsBy templates enter source place scopes s ∨
      target = .own ∧ u.own = none ∧ missing.Stops s := by
  rcases hgiven with ⟨rfl, rfl⟩ | ⟨part, rfl, hchooses⟩
  · cases hown : u.own with
    | none =>
      rw [hown] at h
      exact .inr ⟨rfl, rfl, h⟩
    | some own =>
      rw [hown] at h
      rcases stops_bind h with h | ⟨chosen, hchosen, h⟩
      · obtain ⟨e, hcompile, rfl⟩ := stops_rootPart (stops_map h)
        exact .inl (.fault (.malformed hfind hserves hown hcompile))
      · obtain ⟨part, hpart, rfl⟩ := gives_map hchosen
        obtain ⟨compiled, hcompile, rfl⟩ := gives_rootPart hpart
        exact .inl (.inner (.value hfind hserves (hown ▸ .own hcompile)) h)
  · exact .inl (.inner (.value hfind hserves (hchooses u.own)) h)

theorem stopsBy_of_fillElement {items : List Provider} {own : Option OwnTemplate} {item : Provider}
    (hfind : (scopes.rewind rewind).find? name = some (v, passed))
    (hgiven : target.Supplied templates source place given) (hv : v.Yields ⟨.sequence items, own⟩)
    (hitem : item ∈ items)
    (h : (fillElement enter ⟨source, place, name⟩ given scopes item).Stops s) :
    (Action.value rewind name target).StopsBy templates enter source place scopes s := by
  obtain ⟨t, h⟩ := stops_unwrap_bind h
  cases hfound : (item.unwrap t).1 with
  | none =>
    rw [hfound] at h
    rw [eq_of_stops_stop h]
    exact .fault (.emptyElement hfind hv hitem ⟨t, hfound⟩)
  | some u =>
    rw [hfound] at h
    rcases stopsBy_of_served hfind hgiven (.element hv hitem ⟨t, hfound⟩) h with
      h | ⟨rfl, hown, hmissing⟩
    · exact h
    · obtain ⟨core, _⟩ := u
      obtain rfl : _ = none := hown
      rw [eq_of_stops_stop hmissing]
      exact .fault (.noElementTemplate hfind hv hitem ⟨t, hfound⟩)

theorem exists_stops_fillElement {spot : Spot} {items : List Provider}
    (h : (fillElements enter spot given scopes items).Stops s) :
    ∃ item ∈ items, (fillElement enter spot given scopes item).Stops s := by
  induction items with
  | nil => exact absurd h not_stops_pure
  | cons item rest ih =>
    rcases stops_bind h with h | ⟨_, -, h⟩
    · exact ⟨item, List.mem_cons_self, h⟩
    · obtain ⟨other, hother, h⟩ := ih (stops_map h)
      exact ⟨other, List.mem_cons_of_mem _ hother, h⟩

theorem stopsBy_of_fillValue
    (hfind : (scopes.rewind rewind).find? name = some (v, passed))
    (hgiven : target.Supplied templates source place given)
    (h : (fillValue enter ⟨source, place, name⟩ given scopes v).Stops s) :
    (Action.value rewind name target).StopsBy templates enter source place scopes s := by
  obtain ⟨t, h⟩ := stops_unwrap_bind h
  cases hfound : (v.unwrap t).1 with
  | none =>
    rw [hfound] at h
    rw [eq_of_stops_stop h]
    exact .fault (.empty hfind ⟨t, hfound⟩)
  | some u =>
    rw [hfound] at h
    obtain ⟨core, own⟩ := u
    cases core with
    | scalar text =>
      have hserves : v.Serves ⟨.scalar text, own⟩ := .alone ⟨t, hfound⟩ (by simp)
      rcases stopsBy_of_served hfind hgiven hserves h with h | ⟨-, -, hmissing⟩
      · exact h
      · exact absurd hmissing not_stops_pure
    | map inner entries =>
      have hserves : v.Serves ⟨.map inner entries, own⟩ := .alone ⟨t, hfound⟩ (by simp)
      rcases stopsBy_of_served hfind hgiven hserves h with h | ⟨rfl, hown, hmissing⟩
      · exact h
      · obtain rfl : own = none := hown
        rw [eq_of_stops_stop hmissing]
        exact .fault (.noTemplate hfind ⟨t, hfound⟩)
    | sequence items =>
      obtain ⟨item, hitem, h⟩ := exists_stops_fillElement (stops_map h)
      exact stopsBy_of_fillElement hfind hgiven ⟨t, hfound⟩ hitem h

end Values

theorem gives_resolve {spot : Spot} {rewind : Nat} {v : Provider}
    (h : (resolve spot rewind scopes).Gives v) :
    ∃ passed, (scopes.rewind rewind).find? spot.name = some (v, passed) := by
  unfold resolve at h
  cases hfind : (scopes.rewind rewind).find? spot.name with
  | none =>
    rw [hfind] at h
    exact absurd h not_gives_stop
  | some found =>
    rw [hfind] at h
    dsimp only at h
    split at h
    · obtain ⟨_, -, h⟩ := gives_bind h
      exact ⟨found.2, by rw [← eq_of_gives_pure h]⟩
    · exact ⟨found.2, by rw [← eq_of_gives_pure h]⟩

theorem stops_resolve {spot : Spot} {rewind : Nat} (h : (resolve spot rewind scopes).Stops s) :
    (scopes.rewind rewind).find? spot.name = none ∧
      s = .failed (.substitution (spot.error .unresolved)) := by
  unfold resolve at h
  cases hfind : (scopes.rewind rewind).find? spot.name with
  | none =>
    rw [hfind] at h
    exact ⟨rfl, eq_of_stops_stop h⟩
  | some found =>
    rw [hfind] at h
    dsimp only at h
    split at h
    · exact absurd (stops_note_bind h) not_stops_pure
    · exact absurd h not_stops_pure

/-- A substitution stops the fill by a fault of its own or inside a level that it enters, whatever
kind of substitution it is. -/
theorem stopsBy_of_fillAction {action : Action}
    (h : (fillAction templates enter source place scopes action).Stops s) :
    action.StopsBy templates enter source place scopes s := by
  cases action with
  | comment => exact absurd h not_stops_pure
  | insert rewind name =>
    rcases stops_bind h with h | ⟨part, hpart, h⟩
    · exact stopsBy_of_namedPart rfl h
    · obtain ⟨template, compiled, hget, hcompile, rfl⟩ := gives_namedPart hpart
      cases hinner : scopes.rewind rewind with
      | nil =>
        rw [hinner] at h
        rw [eq_of_stops_stop h]
        exact .fault (.noScope hinner)
      | cons scope outer =>
        refine .inner (.insert hget hcompile (by simp [hinner])) ?_
        rw [hinner] at h ⊢
        exact h
  | value rewind name target =>
    rcases stops_bind h with h | ⟨v, hv, h⟩
    · obtain ⟨hfind, rfl⟩ := stops_resolve h
      exact .fault (.unresolved hfind)
    obtain ⟨passed, hfind⟩ := gives_resolve hv
    rcases stops_bind h with h | ⟨given, hgiven, h⟩
    · exact stopsBy_of_targetPart h
    · exact stopsBy_of_fillValue hfind (supplied_of_gives hgiven) h

theorem exists_stopsBy_of_fillBody {body : Body}
    (h : (fillBody templates enter source scopes body).Stops s) :
    ∃ piece ∈ body.pieces,
      piece.action.StopsBy templates enter source piece.place scopes s := by
  match body with
  | .tail literal => exact absurd h not_stops_pure
  | .piece literal place action rest =>
    rcases stops_bind h with h | ⟨_, -, h⟩
    · exact ⟨_, List.mem_cons_self, stopsBy_of_fillAction h⟩
    · obtain ⟨piece, hpiece, hstops⟩ := exists_stopsBy_of_fillBody (stops_map h)
      exact ⟨piece, List.mem_cons_of_mem _ hpiece, hstops⟩

end

/-! ### Paths of entries -/

namespace Level

variable {templates : TemplateMap} {level : Level} {s : Stop}

/-- A level stops a fill by a fault of its own or inside a level that it calls, with one level less
to go. -/
theorem stops_step {limit : Nat}
    (h : (fillPart templates (limit + 1) level.part level.scopes).Stops s) :
    (∃ e, s = .failed e ∧ level.Faults templates e) ∨
      ∃ inner, level.Calls templates inner ∧
        (fillPart templates limit inner.part inner.scopes).Stops s := by
  obtain ⟨piece, hpiece, hstops⟩ := exists_stopsBy_of_fillBody h
  cases hstops with
  | fault hfault => exact .inl ⟨_, rfl, piece, hpiece, hfault⟩
  | inner henters hinner => exact .inr ⟨_, ⟨piece, hpiece, henters⟩, hinner⟩

/-- A fill that fails does so at a level to which a path of calls leads. The induction is on the
limit, and each step of it is a call. -/
theorem exists_faults {limit : Nat} {e : FillError}
    (h : (fillPart templates limit level.part level.scopes).Stops (.failed e)) :
    ∃ inner, Relation.ReflTransGen (Calls templates) level inner ∧ inner.Faults templates e := by
  induction limit generalizing level with
  | zero => cases eq_of_stops_stop h
  | succ limit ih =>
    rcases stops_step h with ⟨_, he, hfaults⟩ | ⟨inner, hcalls, hstops⟩
    · cases he
      exact ⟨level, .refl, hfaults⟩
    · obtain ⟨last, hpath, hfaults⟩ := ih hstops
      exact ⟨last, .head hcalls hpath, hfaults⟩

end Level

/-! ### The data of a level -/

theorem Provider.Yields.ownsIn {v : Provider} {u : Unwrapped} (h : v.Yields u) :
    u.OwnsIn v.owns := by
  obtain ⟨t, h⟩ := h
  exact v.ownsIn_unwrap t u h

theorem Provider.Serves.ownsIn {v : Provider} {u : Unwrapped} (h : v.Serves u) :
    u.OwnsIn v.owns := by
  cases h with
  | alone hv _ => exact hv.ownsIn
  | @element items _ item _ hv hitem hu =>
    have hitems : item.owns ⊆ v.owns :=
      fun own hown => hv.ownsIn.core (Provider.owns_subset_of_mem hitem hown)
    exact ⟨fun own hown => hitems (hu.ownsIn.own own hown),
      fun own hown => hitems (hu.ownsIn.core hown)⟩

namespace Scopes

/-- All own templates in the scopes are among the given ones. No others can come in during a
fill. -/
def OwnsIn (owns : List OwnTemplate) (scopes : Scopes) : Prop :=
  ∀ core ∈ scopes, core.toProvider.owns ⊆ owns

variable {owns : List OwnTemplate} {scopes : Scopes}

theorem OwnsIn.rewind (h : scopes.OwnsIn owns) (dots : Nat) : (scopes.rewind dots).OwnsIn owns :=
  fun core hcore => h core (List.mem_of_mem_drop hcore)

theorem OwnsIn.find? (h : scopes.OwnsIn owns) {name : Text} {v : Provider} {passed : Nat}
    (hfind : scopes.find? name = some (v, passed)) : v.owns ⊆ owns := by
  induction scopes generalizing passed with
  | nil => cases hfind
  | cons scope outer ih =>
    obtain ⟨hscope, houter⟩ := List.forall_mem_cons.1 h
    rw [Scopes.find?] at hfind
    cases hlookup : scope.lookup name with
    | some value =>
      rw [hlookup] at hfind
      cases hfind
      exact fun own hown => hscope (Core.owns_subset_of_lookup hlookup hown)
    | none =>
      rw [hlookup] at hfind
      obtain ⟨⟨value, depth⟩, houtermost, hv⟩ := Option.map_eq_some_iff.1 hfind
      obtain ⟨rfl, -⟩ := Prod.mk.inj hv
      exact ih houter houtermost

/-- What a value is filled with carries no other templates than the scopes that it is found in, as
it is a part of them. -/
theorem OwnsIn.serves (h : scopes.OwnsIn owns) {dots passed : Nat} {name : Text} {v : Provider}
    (hfind : (scopes.rewind dots).find? name = some (v, passed)) {u : Unwrapped}
    (hserves : v.Serves u) : u.OwnsIn owns :=
  ⟨fun own hown => (h.rewind dots).find? hfind (hserves.ownsIn.own own hown),
    fun _ hown => (h.rewind dots).find? hfind (hserves.ownsIn.core hown)⟩

/-- The scopes that a substitution enters carry no other templates than those around it, which makes
this an invariant of calls. -/
theorem OwnsIn.enters (h : scopes.OwnsIn owns) {templates : TemplateMap} {source : Text}
    {place : Placement} {action : Action} {level : Level}
    (henters : action.Enters templates source place scopes level) : level.scopes.OwnsIn owns := by
  cases henters with
  | insert _ _ _ => exact h.rewind _
  | value hfind hserves _ => exact List.forall_mem_cons.2 ⟨(h.serves hfind hserves).core, h⟩

end Scopes

end Stencil
