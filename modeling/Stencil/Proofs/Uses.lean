import Stencil.Proofs.SequenceJoining

/-!
# The uses of values

A fill uses a value when it takes the wrappers off it: the root before all else, the value of a link
each time that the link is filled, and the elements of a sequence one after another. The uses are
listed in this order, where those inside a template come right after the use of the value that is
filled into it. All that a fill does to the counters is what these uses do to them.
-/
namespace Stencil

open Filling

/-- A value whose wrappers are taken off, with what is found under them. Nothing is found under the
wrappers of a value that is empty. -/
structure Use where
  value : Provider
  found : Option Unwrapped

/-- The uses that there are when the counters stand so. They depend on the counters, whose texts may
decide what is filled. -/
abbrev Uses := Tally → List Use

namespace Uses

def none : Uses := fun _ => []

/-- The use of a value, and then those of what is done with what is found. The counters that stand
in the wrappers have gone on by then. -/
def ofValue (v : Provider) (next : Option Unwrapped → Uses) : Uses := fun t =>
  ⟨v, (v.unwrap t).1⟩ :: next (v.unwrap t).1 (v.unwrap t).2

/-- The uses of what is done after a filling, unless that fails. Nothing is used any more after a
failure. -/
def after {α : Type} (p : Filling α) (next : α → Uses) : Uses := fun t =>
  match (p.run t).result with
  | .error _ => []
  | .ok a => next a (p.run t).tally

/-- The uses of a filling, and then those of what is done after it. The latter start from the
counters that the filling has left. -/
def andThen {α : Type} (p : Filling α) (uses : Uses) (next : α → Uses) : Uses := fun t =>
  uses t ++ after p next t

end Uses

/-! ### The uses of a fill -/

section

variable (templates : TemplateMap) (enter : Enter) (inner : Part → Scopes → Uses)

/-- The uses inside the part that a value is filled into, in a scope of its own. There are none if
no part is chosen. -/
def Unwrapped.uses (found : Unwrapped) (given : Option Part) (scopes : Scopes) : Uses :=
  .after (choosePart given found.own) fun
    | none => .none
    | some part => inner part (found.core :: scopes)

def elementUses (given : Option Part) (scopes : Scopes) (item : Provider) : Uses :=
  .ofValue item fun
    | none => .none
    | some found => found.uses inner given scopes

def elementsUses (spot : Spot) (given : Option Part) (scopes : Scopes) : List Provider → Uses
  | [] => .none
  | item :: rest =>
    .andThen (fillElement enter spot given scopes item) (elementUses inner given scopes item)
      fun _ => elementsUses spot given scopes rest

/-- The uses of a value that a link has found. It is used itself, and then its elements are if it is
a sequence, or else what is inside its part. -/
def valueUses (spot : Spot) (given : Option Part) (scopes : Scopes) (v : Provider) : Uses :=
  .ofValue v fun
    | none => .none
    | some ⟨.sequence items, _⟩ => elementsUses enter inner spot given scopes items
    | some found => found.uses inner given scopes

/-- The uses of a substitution. Names and templates are looked up without any use, so only the value
of a link counts, and what is inside of an insertion. -/
def Action.uses (source : Text) (place : Placement) (scopes : Scopes) : Action → Uses
  | .comment => .none
  | .insert rewind name =>
    .after (namedPart templates ⟨source, place, name⟩ name) fun part =>
      match scopes.rewind rewind with
      | [] => .none
      | outer => inner part outer
  | .value rewind name target =>
    let spot : Spot := ⟨source, place, name⟩
    .after (resolve spot rewind scopes) fun v =>
      .after (targetPart templates spot target) fun given =>
        valueUses enter inner spot given scopes v

def Body.uses (source : Text) (scopes : Scopes) : Body → Uses
  | .tail _ => .none
  | .piece _ place action rest =>
    .andThen (fillAction templates enter source place scopes action)
      (action.uses templates enter inner source place scopes) fun _ => rest.uses source scopes

end

/-- The uses inside a part with at most `limit` parts entered at the same time. A part that is cut
off by the limit uses nothing. -/
def Part.uses (templates : TemplateMap) : (limit : Nat) → Part → Scopes → Uses
  | 0, _, _ => .none
  | limit + 1, part, scopes =>
    part.body.uses templates (fillPart templates limit) (Part.uses templates limit) part.source
      scopes

/-- The uses of filling a compiled template, that of the root before all else. An empty root ends
the fill, so that nothing comes after it. -/
def Compiled.uses (compiled : Compiled) (limit : Nat) (templates : TemplateMap)
    (data : Provider) : Uses :=
  .ofValue data fun
    | none => .none
    | some root => compiled.part.uses templates limit [root.core]

/-- The uses of filling a template. A template that does not compile uses nothing, not even the
root. -/
def Template.uses (template : Template) (limit : Nat) (templates : TemplateMap) (data : Provider) :
    Uses :=
  match template.compile with
  | .error _ => .none
  | .ok compiled => compiled.uses limit templates data

/-! ### Uses and counters -/

/-- Used one after another, the values take the counters from `t` to `t'`. Each finds what
unwrapping it gives where the counters stand by then. -/
inductive Unwraps : Tally → List Use → Tally → Prop
  | nil {t : Tally} : Unwraps t [] t
  | cons {v : Provider} {found : Option Unwrapped} {uses : List Use} {t t' t'' : Tally} :
    v.unwrap t = (found, t') → Unwraps t' uses t'' → Unwraps t (⟨v, found⟩ :: uses) t''

theorem Unwraps.append {uses more : List Use} {t t' t'' : Tally} (h : Unwraps t uses t')
    (hmore : Unwraps t' more t'') : Unwraps t (uses ++ more) t'' := by
  induction h with
  | nil => exact hmore
  | cons hv _ ih => exact .cons hv (ih hmore)

namespace Filling

variable {α β : Type} {p : Filling α} {next : α → Filling β} {uses : Uses} {more : α → Uses}

/-- All that the filling does to the counters is what these uses do to them. This holds wherever the
counters stand at the start, also if the filling fails. -/
def Makes (p : Filling α) (uses : Uses) : Prop :=
  ∀ t, Unwraps t (uses t) (p.run t).tally

theorem makes_pure {a : α} : (pure a : Filling α).Makes .none := fun _ => .nil

theorem makes_stop {reason : Stop} : (stop reason : Filling α).Makes .none := fun _ => .nil

theorem makes_ofExcept (e : Except FillError α) : (ofExcept e).Makes .none := by
  cases e with
  | ok a => exact makes_pure
  | error e => exact makes_stop

theorem Makes.map {f : α → β} (h : p.Makes uses) : (f <$> p).Makes uses := h

theorem Makes.bind (h : p.Makes uses) (hnext : ∀ a, (next a).Makes (more a)) :
    (p >>= next).Makes (.andThen p uses more) := by
  intro t
  have hfirst := h t
  rw [run_bind, Uses.andThen, Uses.after]
  cases hp : (p.run t).result with
  | error reason => simpa using hfirst
  | ok a => exact hfirst.append (hnext a _)

/-- What comes before does not use any values, such as a lookup. The uses are then those of what
comes after it. -/
theorem Makes.after (h : p.Makes .none) (hnext : ∀ a, (next a).Makes (more a)) :
    (p >>= next).Makes (.after p more) :=
  h.bind hnext

theorem Makes.bind_none (h : p.Makes .none) (hnext : ∀ a, (next a).Makes .none) :
    (p >>= next).Makes .none := by
  intro t
  have hbind := h.after hnext t
  rw [Uses.after] at hbind
  cases hp : (p.run t).result <;> simpa [hp, Uses.none] using hbind

theorem makes_unwrap_bind {v : Provider} {next : Option Unwrapped → Filling β}
    {more : Option Unwrapped → Uses} (h : ∀ found, (next found).Makes (more found)) :
    (unwrap v >>= next).Makes (.ofValue v more) :=
  fun _ => .cons rfl (h _ _)

end Filling

section

variable {templates : TemplateMap}

theorem makes_rootPart {n : Note} (compiled : Except FillError Compiled) :
    Makes (do note n
              let compiled ← ofExcept compiled
              pure compiled.part) .none :=
  Makes.bind_none (fun _ => .nil) fun _ => (makes_ofExcept _).bind_none fun _ => makes_pure

theorem makes_namedPart (spot : Spot) (name : Text) :
    (namedPart templates spot name).Makes .none := by
  unfold namedPart
  split
  · exact makes_stop
  · exact makes_rootPart _

theorem makes_resolve (spot : Spot) (dots : Nat) (scopes : Scopes) :
    (resolve spot dots scopes).Makes .none := by
  unfold resolve
  split
  · exact makes_stop
  · dsimp only
    split
    · exact Makes.bind_none (fun _ => .nil) fun _ => makes_pure
    · exact makes_pure

theorem makes_targetPart (spot : Spot) (target : Target) :
    (targetPart templates spot target).Makes .none := by
  cases target with
  | own | inline body | link name target => exact makes_pure
  | named name => exact (makes_namedPart spot name).map

theorem makes_choosePart (given : Option Part) (own : Option OwnTemplate) :
    (choosePart given own).Makes .none := by
  match given, own with
  | some part, _ => exact makes_pure
  | none, some own => exact (makes_rootPart _).map
  | none, none => exact makes_pure

variable {enter : Enter} {inner : Part → Scopes → Uses}
  (h : ∀ part scopes, (enter part scopes).Makes (inner part scopes))

include h

theorem makes_served {missing : Filling Text} (hmissing : missing.Makes .none) (found : Unwrapped)
    (given : Option Part) (scopes : Scopes) :
    (choosePart given found.own >>= fun
      | none => missing
      | some part => enter part (found.core :: scopes)).Makes (found.uses inner given scopes) := by
  refine (makes_choosePart given found.own).after fun chosen => ?_
  cases chosen with
  | none => exact hmissing
  | some part => exact h part _

theorem makes_fillElement (spot : Spot) (given : Option Part) (scopes : Scopes) (item : Provider) :
    (fillElement enter spot given scopes item).Makes (elementUses inner given scopes item) := by
  refine makes_unwrap_bind fun found => ?_
  cases found with
  | none => exact makes_stop
  | some found => exact makes_served h makes_stop found given scopes

theorem makes_fillElements (spot : Spot) (given : Option Part) (scopes : Scopes) :
    ∀ items : List Provider, (fillElements enter spot given scopes items).Makes
      (elementsUses enter inner spot given scopes items)
  | [] => makes_pure
  | item :: rest =>
    (makes_fillElement h spot given scopes item).bind fun _ =>
      (makes_fillElements spot given scopes rest).map

theorem makes_fillValue (spot : Spot) (given : Option Part) (scopes : Scopes) (v : Provider) :
    (fillValue enter spot given scopes v).Makes (valueUses enter inner spot given scopes v) := by
  refine makes_unwrap_bind fun found => ?_
  cases found with
  | none => exact makes_stop
  | some found =>
    obtain ⟨core, own⟩ := found
    cases core with
    | scalar text => exact makes_served h makes_pure ⟨.scalar text, own⟩ given scopes
    | map inner entries => exact makes_served h makes_stop ⟨.map inner entries, own⟩ given scopes
    | sequence items => exact (makes_fillElements h spot given scopes items).map

theorem makes_fillAction (source : Text) (place : Placement) (scopes : Scopes) (action : Action) :
    (fillAction templates enter source place scopes action).Makes
      (action.uses templates enter inner source place scopes) := by
  cases action with
  | comment => exact makes_pure
  | insert rewind name =>
    refine (makes_namedPart _ name).after fun part => ?_
    cases scopes.rewind rewind with
    | nil => exact makes_stop
    | cons scope outer => exact h part _
  | value rewind name target =>
    refine (makes_resolve _ rewind scopes).after fun v => ?_
    exact (makes_targetPart _ target).after fun given => makes_fillValue h _ given scopes v

theorem makes_fillBody (source : Text) (scopes : Scopes) (body : Body) :
    (fillBody templates enter source scopes body).Makes
      (body.uses templates enter inner source scopes) := by
  cases body with
  | tail literal => exact makes_pure
  | piece literal place action rest =>
    have hrest := makes_fillBody source scopes rest
    exact (makes_fillAction h source place scopes action).bind fun _ => hrest.map

end

theorem makes_fillPart (templates : TemplateMap) (limit : Nat) (part : Part) (scopes : Scopes) :
    (fillPart templates limit part scopes).Makes (part.uses templates limit scopes) := by
  -- the parts that a body enters have one less of the limit
  induction limit generalizing part scopes with
  | zero => exact makes_stop
  | succ limit ih => exact makes_fillBody ih part.source scopes part.body

theorem makes_fillRoot (templates : TemplateMap) (limit : Nat) (compiled : Compiled)
    (data : Provider) :
    (fillRoot templates limit compiled data).Makes (compiled.uses limit templates data) := by
  refine makes_unwrap_bind fun found => ?_
  cases found with
  | none => exact makes_stop
  | some root => exact makes_fillPart templates limit compiled.part _

/-- All that a fill does to the counters is what its uses do to them. So no callback is invoked
apart from these uses. -/
theorem makes_fillWithin (template : Template) (limit : Nat) (templates : TemplateMap)
    (data : Provider) :
    (template.fillWithin limit templates data).Makes (template.uses limit templates data) := by
  unfold Template.fillWithin Template.uses
  cases template.compile with
  | error e => exact makes_stop
  | ok compiled => exact makes_fillRoot templates limit compiled data

end Stencil
