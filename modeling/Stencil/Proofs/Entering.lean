import Stencil.Proofs.CounterFree
import Stencil.Proofs.Levels
import Stencil.Proofs.ScopeNames

/-!
# What a level enters

The levels that a level calls are those that its substitutions may enter. A fill enters no others,
so that it does not matter how others would be filled. And if the data has no counters, a level
gives a text only after it has entered all that it calls.
-/
namespace Stencil

open Filling

/-! ### Nothing else is entered -/

namespace Filling

variable {α β : Type}

/-- What comes after a filling depends on the values that it can give, and on no others. -/
theorem bind_congr_of_gives {p : Filling α} {f g : α → Filling β}
    (h : ∀ a, p.Gives a → f a = g a) : (p >>= f) = (p >>= g) := by
  ext t
  rw [run_bind, run_bind]
  cases hp : (p.run t).result with
  | error reason => rfl
  | ok a => simp only [h a ⟨t, hp⟩]

theorem eq_of_gives_unwrap {v : Provider} {found : Option Unwrapped} (h : (unwrap v).Gives found) :
    ∃ t, (v.unwrap t).1 = found := by
  obtain ⟨t, h⟩ := h
  exact ⟨t, Except.ok.inj h⟩

end Filling

section

variable {templates : TemplateMap} {source : Text} {place : Placement} {scopes : Scopes}
  {target : Target} {given : Option Part} {enter enter' : Enter} {text : Text} {inner : Level}

/-- A target chooses the same part each time, as it depends on the templates and the value only. -/
theorem Target.Chooses.unique {own : Option OwnTemplate} {part part' : Part}
    (h : target.Chooses templates source place own part)
    (h' : target.Chooses templates source place own part') : part = part' := by
  cases h with
  | own hcompile =>
    cases h' with
    | own hcompile' => rw [Except.ok.inj (hcompile.symm.trans hcompile')]
  | named hget hcompile =>
    cases h' with
    | named hget' hcompile' =>
      obtain rfl := Option.some.inj (hget.symm.trans hget')
      rw [Except.ok.inj (hcompile.symm.trans hcompile')]
  | inline | link => cases h'; rfl

/-- The part that a value is filled into is the one that its target chooses, if the filling gives
any. -/
theorem chooses_of_gives {own : Option OwnTemplate} {part : Part}
    (hgiven : target.Supplied templates source place given)
    (h : (choosePart given own).Gives (some part)) :
    target.Chooses templates source place own part := by
  rcases hgiven with ⟨rfl, rfl⟩ | ⟨part', rfl, hchooses⟩
  · cases own with
    | none => cases eq_of_gives_pure h
    | some own =>
      obtain ⟨chosen, hchosen, heq⟩ := gives_map h
      obtain ⟨compiled, hcompile, rfl⟩ := gives_rootPart hchosen
      rw [← Option.some.inj heq]
      exact .own hcompile
  · rw [← Option.some.inj (eq_of_gives_pure h)]
    exact hchooses own

theorem served_congr {u : Unwrapped} {missing : Filling Text}
    (hgiven : target.Supplied templates source place given)
    (h : ∀ part, target.Chooses templates source place u.own part →
      enter part (u.core :: scopes) = enter' part (u.core :: scopes)) :
    (choosePart given u.own >>= fun chosen => match chosen with
      | none => missing
      | some part => enter part (u.core :: scopes)) =
    (choosePart given u.own >>= fun chosen => match chosen with
      | none => missing
      | some part => enter' part (u.core :: scopes)) := by
  refine bind_congr_of_gives fun chosen hchosen => ?_
  cases chosen with
  | none => rfl
  | some part => exact h part (chooses_of_gives hgiven hchosen)

theorem fillElements_congr {spot : Spot} {items : List Provider}
    (h : ∀ item ∈ items,
      fillElement enter spot given scopes item = fillElement enter' spot given scopes item) :
    fillElements enter spot given scopes items = fillElements enter' spot given scopes items := by
  induction items with
  | nil => rfl
  | cons item rest ih =>
    obtain ⟨hitem, hrest⟩ := List.forall_mem_cons.1 h
    rw [fillElements, fillElements, hitem, ih hrest]

theorem fillValue_congr {spot : Spot} {v : Provider}
    (hgiven : target.Supplied templates source place given)
    (h : ∀ u, v.Serves u → ∀ part, target.Chooses templates source place u.own part →
      enter part (u.core :: scopes) = enter' part (u.core :: scopes)) :
    fillValue enter spot given scopes v = fillValue enter' spot given scopes v := by
  refine bind_congr_of_gives fun found hfound => ?_
  obtain ⟨t, rfl⟩ := eq_of_gives_unwrap hfound
  cases hu : (v.unwrap t).1 with
  | none => rfl
  | some u =>
    obtain ⟨core, own⟩ := u
    cases core with
    | scalar text | map inner entries =>
      exact served_congr hgiven (h _ (.alone ⟨t, hu⟩ (by simp)))
    | sequence items =>
      refine congrArg (spot.place.joining.join <$> ·) (fillElements_congr fun item hitem => ?_)
      refine bind_congr_of_gives fun found hfound => ?_
      obtain ⟨t', rfl⟩ := eq_of_gives_unwrap hfound
      cases hu' : (item.unwrap t').1 with
      | none => rfl
      | some u => exact served_congr hgiven (h u (.element ⟨t, hu⟩ hitem ⟨t', hu'⟩))

/-- How a substitution is filled depends on the levels that it may enter and on no others. So two
ways of entering need to agree on those only. -/
theorem fillAction_congr {action : Action}
    (h : ∀ inner, action.Enters templates source place scopes inner →
      enter inner.part inner.scopes = enter' inner.part inner.scopes) :
    fillAction templates enter source place scopes action =
      fillAction templates enter' source place scopes action := by
  cases action with
  | comment => rfl
  | insert rewind name =>
    refine bind_congr_of_gives fun part hpart => ?_
    obtain ⟨template, compiled, hget, hcompile, rfl⟩ := gives_namedPart hpart
    cases hinner : scopes.rewind rewind with
    | nil => rfl
    | cons scope outer =>
      have hlevel := h _ (.insert hget hcompile (by simp [hinner]))
      rw [hinner] at hlevel
      exact hlevel
  | value rewind name target =>
    refine bind_congr_of_gives fun v hv => bind_congr_of_gives fun given hgiven => ?_
    obtain ⟨passed, hfind⟩ := gives_resolve hv
    exact fillValue_congr (supplied_of_gives hgiven) fun u hu part hpart =>
      h _ (.value hfind hu hpart)

theorem fillBody_congr {body : Body}
    (h : ∀ piece ∈ body.pieces, ∀ inner,
      piece.action.Enters templates source piece.place scopes inner →
        enter inner.part inner.scopes = enter' inner.part inner.scopes) :
    fillBody templates enter source scopes body = fillBody templates enter' source scopes body := by
  match body with
  | .tail literal => rfl
  | .piece literal place action rest =>
    obtain ⟨hfirst, hrest⟩ := List.forall_mem_cons.1 h
    rw [fillBody, fillBody, fillAction_congr hfirst, fillBody_congr hrest]

end

open Classical in
/-- Fills a part, but sounds the alarm where a level enters one that it may not enter. The alarm can
be any other way to fill a part. -/
noncomputable def fillWatched (templates : TemplateMap) (allowed : Level → Level → Prop)
    (alarm : Enter) : (limit : Nat) → Enter
  | 0, _, _ => .stop .tooDeep
  | limit + 1, part, scopes =>
    let watched : Enter := fun part' scopes' =>
      if allowed ⟨part, scopes⟩ ⟨part', scopes'⟩ then
        fillWatched templates allowed alarm limit part' scopes'
      else alarm part' scopes'
    fillBody templates watched part.source scopes part.body

/-- In no fill does a level enter another one that it does not call: whatever the alarm would do,
the fill is the same. -/
theorem fillWatched_calls (templates : TemplateMap) (alarm : Enter) (limit : Nat) :
    fillWatched templates (Level.Calls templates) alarm limit = fillPart templates limit := by
  induction limit with
  | zero => rfl
  | succ limit ih =>
    funext part scopes
    rw [fillWatched, fillPart]
    refine fillBody_congr fun piece hpiece inner henters => ?_
    rw [if_pos ⟨piece, hpiece, henters⟩, ih]

/-! ### Data without counters -/

namespace Provider

variable {v : Provider} {u : Unwrapped}

/-- Without counters, what is under the wrappers does not change, however often it is asked for. -/
theorem Yields.unwrap_eq (h : v.Yields u) (hv : v.counterFree = true) (t : Tally) :
    v.unwrap t = (some u, t) := by
  obtain ⟨t', h⟩ := h
  exact Prod.ext ((unwrap_fst_of_counterFree hv t t').trans h) (unwrap_of_counterFree hv t).1

theorem Yields.counterFree (h : v.Yields u) (hv : v.counterFree = true) :
    u.core.toProvider.counterFree = true := by
  obtain ⟨t, h⟩ := h
  exact (unwrap_of_counterFree hv t).2 u h

theorem Yields.counterFree_item {items : List Provider} {own : Option OwnTemplate} {item : Provider}
    (h : v.Yields ⟨.sequence items, own⟩) (hv : v.counterFree = true) (hitem : item ∈ items) :
    item.counterFree = true :=
  (counterFreeItems_iff items).1 (h.counterFree hv) item hitem

theorem Serves.counterFree (h : v.Serves u) (hv : v.counterFree = true) :
    u.core.toProvider.counterFree = true := by
  cases h with
  | alone hu _ => exact hu.counterFree hv
  | element hsequence hitem hu => exact hu.counterFree (hsequence.counterFree_item hv hitem)

end Provider

/-- There is no counter anywhere in the scopes, so that what is found in them is always the same. -/
def Scopes.CounterFree (scopes : Scopes) : Prop :=
  ∀ core ∈ scopes, core.toProvider.counterFree = true

theorem Scopes.CounterFree.find? {scopes : Scopes} (h : scopes.CounterFree) {dots passed : Nat}
    {name : Text} {v : Provider} (hfind : (scopes.rewind dots).find? name = some (v, passed)) :
    v.counterFree = true := by
  obtain ⟨⟨core, hcore, hv⟩, -⟩ := find?_rewind_eq_some_iff.1 hfind
  exact Core.counterFree_lookup (h core (List.mem_of_getElem? hcore)) hv

/-! ### All that is called is entered -/

section

variable {templates : TemplateMap} {source : Text} {place : Placement} {scopes : Scopes}
  {target : Target} {given : Option Part} {enter : Enter} {spot : Spot} {text : Text}

theorem gives_of_served {u : Unwrapped} {missing : Filling Text} {part : Part}
    (hgiven : target.Supplied templates source place given)
    (hchooses : target.Chooses templates source place u.own part)
    (h : (choosePart given u.own >>= fun chosen => match chosen with
      | none => missing
      | some part => enter part (u.core :: scopes)).Gives text) :
    ∃ inside, (enter part (u.core :: scopes)).Gives inside := by
  obtain ⟨chosen, hchosen, h⟩ := gives_bind h
  cases chosen with
  | some part' =>
    obtain rfl := hchooses.unique (chooses_of_gives hgiven hchosen)
    exact ⟨text, h⟩
  | none =>
    rcases hgiven with ⟨rfl, rfl⟩ | ⟨part', rfl, -⟩
    · generalize u.own = own at hchooses hchosen
      cases hchooses with
      | own _ =>
        obtain ⟨_, -, heq⟩ := gives_map hchosen
        cases heq
    · cases eq_of_gives_pure hchosen

theorem exists_gives_fillElement {items : List Provider} {texts : List Text}
    (h : (fillElements enter spot given scopes items).Gives texts) :
    ∀ item ∈ items, ∃ text, (fillElement enter spot given scopes item).Gives text := by
  induction items generalizing texts with
  | nil => simp
  | cons item rest ih =>
    obtain ⟨text, htext, h⟩ := gives_bind h
    obtain ⟨more, hmore, -⟩ := gives_map h
    exact List.forall_mem_cons.2 ⟨⟨text, htext⟩, ih hmore⟩

theorem gives_of_fillValue {v : Provider} {u : Unwrapped} {part : Part} (hv : v.counterFree = true)
    (hgiven : target.Supplied templates source place given) (hserves : v.Serves u)
    (hchooses : target.Chooses templates source place u.own part)
    (h : (fillValue enter spot given scopes v).Gives text) :
    ∃ inside, (enter part (u.core :: scopes)).Gives inside := by
  obtain ⟨found, hfound, h⟩ := gives_bind h
  obtain ⟨t, rfl⟩ := eq_of_gives_unwrap hfound
  -- Without counters, what a value unwraps to at some time is what it unwraps to in this run.
  cases hserves with
  | alone hu halone =>
    rw [hu.unwrap_eq hv t] at h
    obtain ⟨core, own⟩ := u
    cases core with
    | scalar _ | map _ _ => exact gives_of_served hgiven hchooses h
    | sequence items => exact absurd rfl (halone items)
  | @element items _ item _ hsequence hitem hu =>
    rw [hsequence.unwrap_eq hv t] at h
    obtain ⟨texts, htexts, -⟩ := gives_map h
    obtain ⟨_, hfilled⟩ := exists_gives_fillElement htexts item hitem
    obtain ⟨found, hfound, hfilled⟩ := gives_bind hfilled
    obtain ⟨t', rfl⟩ := eq_of_gives_unwrap hfound
    rw [hu.unwrap_eq (hsequence.counterFree_item hv hitem) t'] at hfilled
    exact gives_of_served hgiven hchooses hfilled

/-- A substitution gives a text only if all levels that it may enter do, as an error in one of them
would be its own. -/
theorem gives_of_fillAction {action : Action} {inner : Level} (hscopes : scopes.CounterFree)
    (henters : action.Enters templates source place scopes inner)
    (h : (fillAction templates enter source place scopes action).Gives text) :
    ∃ inside, (enter inner.part inner.scopes).Gives inside := by
  cases henters with
  | @insert rewind name template compiled hget hcompile hne =>
    obtain ⟨part, hpart, h⟩ := gives_bind h
    obtain ⟨template', compiled', hget', hcompile', rfl⟩ := gives_namedPart hpart
    obtain rfl := Option.some.inj (hget.symm.trans hget')
    obtain rfl := Except.ok.inj (hcompile.symm.trans hcompile')
    cases hinner : scopes.rewind rewind with
    | nil => exact absurd hinner hne
    | cons scope outer =>
      rw [hinner] at h
      exact ⟨text, h⟩
  | value hfind hserves hchooses =>
    obtain ⟨v', hv', h⟩ := gives_bind h
    obtain ⟨given, hgiven, h⟩ := gives_bind h
    obtain ⟨_, hfind'⟩ := gives_resolve hv'
    cases hfind.symm.trans hfind'
    exact gives_of_fillValue (hscopes.find? hfind) (supplied_of_gives hgiven) hserves hchooses h

theorem gives_of_fillBody {body : Body} {text : Text} {inner : Level} (hscopes : scopes.CounterFree)
    {piece : Body.Piece} (hpiece : piece ∈ body.pieces)
    (henters : piece.action.Enters templates source piece.place scopes inner)
    (h : (fillBody templates enter source scopes body).Gives text) :
    ∃ inside, (enter inner.part inner.scopes).Gives inside := by
  match body with
  | .tail literal => cases hpiece
  | .piece literal place action rest =>
    obtain ⟨written, hwritten, h⟩ := gives_bind h
    rcases List.mem_cons.1 hpiece with rfl | hrest
    · exact gives_of_fillAction hscopes henters hwritten
    · obtain ⟨after, hafter, -⟩ := gives_map h
      exact gives_of_fillBody hscopes hrest henters hafter

end

end Stencil
