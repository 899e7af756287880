import Stencil.Proofs.SessionEffects
import Stencil.Proofs.Uses

/-!
# Invocations

A counter is invoked once each time that it is used, and at no other time. So the uses of a counter
give consecutive numbers in the order in which they come, from one fill to the next. A use gives one
number: inside the template that it is filled into, the counter is a text like any other.
-/
namespace Stencil

open Filling

/-- The text that the next invocation of a counter gives, which is the number of invocations so far
and one more. -/
def Tally.next (t : Tally) (id : Nat) : Text :=
  integerText ((t.count id + 1 : Nat) : Int)

namespace Provider

/-- The counter under the wrappers, if that is what they hold. -/
def counter? : Provider → Option Nat
  | .present inner | .pointer inner | .callback inner | .delegate _ inner => inner.counter?
  | .counter id => some id
  | .scalar _ | .sequence _ | .map _ _ | .absent | .json _ => none

/-- The wrappers with a text instead of the counter, which is what a use of the counter has
found. -/
def fixed (text : Text) : Provider → Provider
  | .present inner => .present (inner.fixed text)
  | .pointer inner => .pointer (inner.fixed text)
  | .callback inner => .callback (inner.fixed text)
  | .delegate own inner => .delegate own (inner.fixed text)
  | .counter _ => .scalar text
  | v => v

variable {v : Provider} {id : Nat}

/-- Without a counter under the wrappers, none is invoked when they are taken off. -/
theorem unwrap_snd_of_counter? (h : v.counter? = none) (t : Tally) : (v.unwrap t).2 = t := by
  fun_induction unwrap t v with
  | case1 | case2 | case3 | case4 | case10 => rfl
  | case5 inner ih | case6 inner ih | case7 inner ih => exact ih h
  | case8 own inner found tally hinner ih =>
    rw [hinner] at ih
    exact ih h
  | case9 id => cases h

/-- A counter under wrappers is invoked once, and gives its next number as a text. -/
theorem exists_unwrap_of_counter? (h : v.counter? = some id) (t : Tally) :
    ∃ own, v.unwrap t = (some ⟨.scalar (t.next id), own⟩, t.bump id) := by
  fun_induction unwrap t v with
  | case1 | case2 | case3 | case4 | case10 => cases h
  | case5 inner ih | case6 inner ih | case7 inner ih => exact ih h
  | case8 own inner found tally hinner ih =>
    obtain ⟨other, heq⟩ := ih h
    rw [hinner] at heq
    cases heq
    exact ⟨own <|> other, rfl⟩
  | case9 other after =>
    obtain rfl : other = id := Option.some.inj h
    have hcount : after.count other = t.count other + 1 := by
      rw [Tally.count_bump, if_pos rfl]
    exact ⟨none, by rw [Tally.next, ← hcount]; rfl⟩

/-- The text in its place is found without any invocation, and with the template that the wrappers
carry. -/
theorem unwrap_fixed {text : Text} {own : Option OwnTemplate} {t t' : Tally}
    (h : v.counter? = some id) (hv : v.unwrap t = (some ⟨.scalar text, own⟩, t')) :
    (v.fixed text).unwrap t' = (some ⟨.scalar text, own⟩, t') := by
  fun_induction unwrap t v generalizing own with
  | case1 | case2 | case3 | case4 | case10 => cases h
  | case5 inner ih | case6 inner ih | case7 inner ih => exact ih h hv
  | case8 outer inner found tally hinner ih =>
    rw [Prod.mk.injEq] at hv
    obtain ⟨hfound, rfl⟩ := hv
    obtain ⟨⟨core, other⟩, rfl, heq⟩ := Option.map_eq_some_iff.1 hfound
    cases heq
    rw [fixed, unwrap, ih h hinner]
    rfl
  | case9 =>
    obtain ⟨hfound, -⟩ := Prod.mk.inj hv
    cases hfound
    rfl

theorem counterFree_fixed {text : Text} (h : v.counter? = some id) :
    (v.fixed text).counterFree = true := by
  fun_induction counter? v with
  | case1 inner ih | case2 inner ih | case3 inner ih | case4 own inner ih => exact ih h
  | case5 => rfl
  | case6 | case7 | case8 | case9 | case10 => cases h

end Provider

/-! ### Counting uses -/

namespace Use

/-- The counter that the use invokes, if its value is one. -/
def counter? (use : Use) : Option Nat :=
  use.value.counter?

/-- The text that the use finds, if what is under the wrappers comes to a text. -/
def text? (use : Use) : Option Text :=
  match use.found with
  | some ⟨.scalar text, _⟩ => some text
  | _ => none

end Use

/-- The uses of one counter, in their order and without those of other values. -/
def usesOf (id : Nat) (uses : List Use) : List Use :=
  uses.filter (·.counter? = some id)

/-- With these uses the counters go from `t` to `t'`, and each use of a counter gives the number of
its invocation. -/
structure Counted (t : Tally) (uses : List Use) (t' : Tally) : Prop where
  /-- Each use of a counter invokes it once, and there are no other invocations. -/
  tally : t' = (uses.filterMap Use.counter?).foldl Tally.bump t
  count : ∀ id, t'.count id = t.count id + (usesOf id uses).length
  /-- In the order of its uses, a counter goes on counting from where it was, without a gap and
  without a repetition. -/
  texts : ∀ id, (usesOf id uses).map Use.text? =
    (List.range' (t.count id + 1) (usesOf id uses).length).map
      fun n => some (integerText (n : Nat))

namespace Counted

variable {use : Use} {uses : List Use} {id : Nat} {t t' : Tally}

theorem pass (h : Counted t uses t') (huse : use.counter? = none) : Counted t (use :: uses) t' := by
  have huses (other : Nat) : usesOf other (use :: uses) = usesOf other uses :=
    List.filter_cons_of_neg (by simp [huse])
  refine ⟨?_, fun other => ?_, fun other => ?_⟩
  · rw [List.filterMap_cons_none huse]
    exact h.tally
  · rw [huses]
    exact h.count other
  · rw [huses]
    exact h.texts other

theorem invoke (h : Counted (t.bump id) uses t') (huse : use.counter? = some id)
    (htext : use.text? = some (t.next id)) : Counted t (use :: uses) t' := by
  have hother {other : Nat} (hne : other ≠ id) :
      usesOf other (use :: uses) = usesOf other uses ∧
        (t.bump id).count other = t.count other := by
    refine ⟨List.filter_cons_of_neg (by simp [huse, Ne.symm hne]), ?_⟩
    rw [Tally.count_bump, if_neg hne, Nat.add_zero]
  have hsame : usesOf id (use :: uses) = use :: usesOf id uses ∧
      (t.bump id).count id = t.count id + 1 := by
    refine ⟨List.filter_cons_of_pos (by simp [huse]), ?_⟩
    rw [Tally.count_bump, if_pos rfl]
  refine ⟨?_, fun other => ?_, fun other => ?_⟩
  · rw [List.filterMap_cons_some huse]
    exact h.tally
  · have hcount := h.count other
    by_cases heq : other = id
    · subst heq
      rw [hsame.1, List.length_cons, hcount, hsame.2]
      omega
    · rw [(hother heq).1, hcount, (hother heq).2]
  · have htexts := h.texts other
    by_cases heq : other = id
    · subst heq
      rw [hsame.1, List.map_cons, htexts, hsame.2, htext, List.length_cons, List.range'_succ,
        List.map_cons, Tally.next]
    · rw [(hother heq).1, htexts, (hother heq).2]

end Counted

/-- Uses that take the counters somewhere are counted by them. The induction is on the uses, one
after another. -/
theorem Unwraps.counted {uses : List Use} {t t' : Tally} (h : Unwraps t uses t') :
    Counted t uses t' := by
  induction h with
  | nil => exact ⟨rfl, fun _ => rfl, fun _ => rfl⟩
  | @cons v found uses t t' t'' hv _ ih =>
    cases hcounter : v.counter? with
    | none =>
      -- the counters stand still, so that the rest is numbered from the same point
      have hstay := Provider.unwrap_snd_of_counter? hcounter t
      rw [hv] at hstay
      obtain rfl : t' = t := hstay
      exact ih.pass hcounter
    | some id =>
      obtain ⟨own, hnext⟩ := Provider.exists_unwrap_of_counter? hcounter t
      rw [hv] at hnext
      cases hnext
      exact ih.invoke hcounter rfl

/-! ### What a use sees -/

/-- Used when the counters stand at `t`, the value is this text, and they stand at `t'` from then
on. Whatever it is filled into gets the text. -/
structure Provider.OneValue (v : Provider) (text : Text) (t t' : Tally) : Prop where
  found : ∃ own, v.unwrap t = (some ⟨.scalar text, own⟩, t')
  value : ∀ enter spot given scopes, (fillValue enter spot given scopes v).run t =
    (fillValue enter spot given scopes (v.fixed text)).run t'
  element : ∀ enter spot given scopes, (fillElement enter spot given scopes v).run t =
    (fillElement enter spot given scopes (v.fixed text)).run t'
  root : ∀ templates limit compiled, (fillRoot templates limit compiled v).run t =
    (fillRoot templates limit compiled (v.fixed text)).run t'
  /-- Nothing in it can be invoked again, so that whatever is done with the value gives the same
  text. -/
  counterFree : (v.fixed text).counterFree = true

theorem Filling.run_unwrap_bind_congr {α : Type} {v w : Provider}
    {next : Option Unwrapped → Filling α} {t t' : Tally} (h : v.unwrap t = w.unwrap t') :
    (unwrap v >>= next).run t = (unwrap w >>= next).run t' := by
  rw [run_unwrap_bind rfl, run_unwrap_bind rfl, h]

theorem Provider.oneValue {v : Provider} {id : Nat} (h : v.counter? = some id) (t : Tally) :
    v.OneValue (t.next id) t (t.bump id) := by
  obtain ⟨own, hv⟩ := exists_unwrap_of_counter? h t
  have hfixed := unwrap_fixed h hv
  refine ⟨⟨own, hv⟩, fun enter spot given scopes => ?_, fun enter spot given scopes => ?_,
    fun templates limit compiled => ?_, counterFree_fixed h⟩
  · exact run_unwrap_bind_congr (hv.trans hfixed.symm)
  · exact run_unwrap_bind_congr (hv.trans hfixed.symm)
  · exact run_unwrap_bind_congr (hv.trans hfixed.symm)

/-- A scope that is a text knows no name but the empty one, which stands for that text. -/
theorem Scopes.Resolves.eq_scalar {scopes : Scopes} {dots i : Nat} {name text : Text} {v : Provider}
    (h : scopes.Resolves dots name i v) (hscope : scopes[i]? = some (.scalar text)) :
    name = [] ∧ v = .scalar text := by
  cases h with
  | self hcore =>
    obtain rfl := Option.some.inj (hcore.symm.trans hscope)
    exact ⟨rfl, rfl⟩
  | entry _ _ hcore _ _ => cases hcore.symm.trans hscope

/-- The uses of a link, which is filled as `Spot.fillLink` says: first its value, then those of what
it enters. -/
def Spot.linkUses (spot : Spot) (templates : TemplateMap) (enter : Enter)
    (inner : Part → Scopes → Uses) (dots : Nat) (target : Target) (scopes : Scopes) : Uses :=
  (Action.value dots spot.name target).uses templates enter inner spot.source spot.place scopes

/-- A link uses its value, once that is found and the template that the link names is there.
Otherwise it uses nothing. -/
structure Spot.LinkUses (spot : Spot) (templates : TemplateMap) (enter : Enter)
    (inner : Part → Scopes → Uses) (dots : Nat) (target : Target) (scopes : Scopes) : Prop where
  found : ∀ i v, scopes.Resolves dots spot.name i v → target.Available templates →
    ∃ given, target.Supplied templates spot.source spot.place given ∧
      spot.linkUses templates enter inner dots target scopes =
        valueUses enter inner spot given scopes v
  unresolved : (∀ i v, ¬ scopes.Resolves dots spot.name i v) →
    spot.linkUses templates enter inner dots target scopes = .none
  unavailable : ¬ target.Available templates →
    spot.linkUses templates enter inner dots target scopes = .none

namespace Uses

variable {α : Type} {p : Filling α} {next : α → Uses} {notes : List Note} {t t' : Tally}

theorem after_of_ok {a : α} (h : p.run t = ⟨.ok a, notes, t'⟩) : after p next t = next a t' := by
  rw [after, h]

theorem after_of_error {reason : Stop} (h : p.run t = ⟨.error reason, notes, t'⟩) :
    after p next t = [] := by
  rw [after, h]

end Uses

/-- Without an available target there is no part for it, and nothing is invoked in finding that
out. -/
theorem exists_run_targetPart_error {templates : TemplateMap} {target : Target} (spot : Spot)
    (h : ¬ target.Available templates) (t : Tally) :
    ∃ reason notes, (targetPart templates spot target).run t = ⟨.error reason, notes, t⟩ := by
  cases target with
  | own | inline body | link name target => exact absurd (fun _ hnamed => by cases hnamed) h
  | named name =>
    cases hget : templates.get? name with
    | none => exact ⟨_, _, run_targetPart_missing hget⟩
    | some template =>
      cases hcompile : template.compile with
      | error e => exact ⟨_, _, run_targetPart_malformed hget hcompile⟩
      | ok compiled =>
        refine absurd (fun other hother => ?_) h
        cases hother
        exact ⟨template, compiled, hget, hcompile⟩

theorem Spot.uses_link (spot : Spot) (templates : TemplateMap) (enter : Enter)
    (inner : Part → Scopes → Uses) (dots : Nat) (target : Target) (scopes : Scopes) :
    spot.LinkUses templates enter inner dots target scopes := by
  have hresolved := spot.resolvesIn dots scopes
  refine ⟨fun i v hv htarget => ?_, fun hnone => funext fun t => ?_,
    fun htarget => funext fun t => ?_⟩
  · obtain ⟨given, hgiven, hrun⟩ := run_targetPart spot htarget
    refine ⟨given, hgiven, funext fun t => ?_⟩
    exact (Uses.after_of_ok (hresolved.found i v hv t)).trans (Uses.after_of_ok (hrun t))
  · exact Uses.after_of_error (hresolved.unresolved hnone t)
  · by_cases hv : ∃ i v, scopes.Resolves dots spot.name i v
    · obtain ⟨i, v, hv⟩ := hv
      obtain ⟨reason, notes, hrun⟩ := exists_run_targetPart_error spot htarget t
      exact (Uses.after_of_ok (hresolved.found i v hv t)).trans (Uses.after_of_error hrun)
    · have hnone : ∀ i v, ¬ scopes.Resolves dots spot.name i v :=
        fun i v hresolves => hv ⟨i, v, hresolves⟩
      exact Uses.after_of_error (hresolved.unresolved hnone t)

/-! ### From fill to fill -/

namespace Session

/-- The uses of filling the template that is kept under this name, and none if there is no such
template. -/
def fillUses (session : Session) (id : Text) (templates : TemplateMap) (data : Provider) :
    List Use :=
  match session.templates.lookup id with
  | none => []
  | some template => template.uses session.limit templates data session.tally

/-- The uses of the fill that a step makes, if it makes one. No other step asks for values. -/
def uses (session : Session) (map : Text) : Step → List Use
  | .fill id data => session.fillUses id (session.map map) data
  | .render id data => session.fillUses id .empty data
  | .fillInto id data _ => session.fillUses id (session.map map) data
  | _ => []

/-- The session after steps, each with the map that it works on, one after another. -/
def runAll (session : Session) : List (Text × Step) → Session
  | [] => session
  | (map, step) :: rest => (session.run map step).1.runAll rest

/-- The uses of all fills that the steps make, in the order of the steps. -/
def usesAll (session : Session) : List (Text × Step) → List Use
  | [] => []
  | (map, step) :: rest => session.uses map step ++ (session.run map step).1.usesAll rest

variable {session : Session} {map : Text}

theorem unwraps_fill {id : Text} {f : Template → Session × Reply} (templates : TemplateMap)
    (data : Provider)
    (hnext : ∀ template, (f template).1.tally =
      ((template.fillWithin session.limit templates data).run session.tally).tally) :
    Unwraps session.tally (session.fillUses id templates data)
      (session.withTemplate id f).1.tally := by
  rw [fillUses, withTemplate]
  cases session.templates.lookup id with
  | none => exact .nil
  | some template =>
    rw [hnext]
    exact makes_fillWithin template session.limit templates data session.tally

theorem unwraps_withTemplate {id : Text} {f : Template → Session × Reply}
    (hnext : ∀ template, (f template).1.tally = session.tally) :
    Unwraps session.tally [] (session.withTemplate id f).1.tally := by
  rw [withTemplate]
  cases session.templates.lookup id with
  | none => exact .nil
  | some template =>
    rw [hnext]
    exact .nil

/-- Only fills use values: all other steps leave the counters as they are. -/
theorem unwraps_step (session : Session) (map : Text) (step : Step) :
    Unwraps session.tally (session.uses map step) (session.step map step).1.tally := by
  cases step with
  | fill id data | fillInto id data sink =>
    rw [Session.step]
    exact unwraps_fill (session.map map) data fun template => rfl
  | render id data =>
    rw [Session.step]
    exact unwraps_fill .empty data fun template => rfl
  | clone id target | source id | describe id | isCompiled id | compile id | insertCopy name id =>
    rw [Session.step]
    exact unwraps_withTemplate fun template => rfl
  | load settings directory =>
    rw [Session.step]
    split <;> exact .nil
  | _ => exact .nil

theorem unwraps_run (session : Session) (map : Text) (step : Step) :
    Unwraps session.tally (session.uses map step) (session.run map step).1.tally := by
  have hmention : (session.setMap map (session.map map)).uses map step = session.uses map step := by
    unfold uses
    rw [map_mention]
    rfl
  rw [← hmention]
  exact unwraps_step (session.setMap map (session.map map)) map step

theorem unwraps_runAll (session : Session) (steps : List (Text × Step)) :
    Unwraps session.tally (session.usesAll steps) (session.runAll steps).tally := by
  induction steps generalizing session with
  | nil => exact .nil
  | cons first rest ih => exact (session.unwraps_run first.1 first.2).append (ih _)

end Session

/-- Each use of a counter invokes it once, and nothing else does. So its uses give consecutive
numbers, those of a template right after that of the value that is filled into it, and from one fill
of a session to the next. The scope that a use opens is the text of that use, which is all that it
knows. -/
theorem invoked_once_per_use (templates : TemplateMap) :
    (∀ (template : Template) (limit : Nat) (data : Provider) (t : Tally),
      Counted t (template.uses limit templates data t)
        ((template.fillWithin limit templates data).run t).tally) ∧
    (∀ (spot : Spot) (enter : Enter) (inner : Part → Scopes → Uses) (dots : Nat) (target : Target)
      (scopes : Scopes), spot.LinkUses templates enter inner dots target scopes) ∧
    (∀ (v : Provider) (id : Nat) (t : Tally), v.counter? = some id →
      v.OneValue (t.next id) t (t.bump id)) ∧
    (∀ (scopes : Scopes) (dots i : Nat) (name text : Text) (v : Provider),
      scopes.Resolves dots name i v → scopes[i]? = some (.scalar text) →
        name = [] ∧ v = .scalar text) ∧
    ∀ (session : Session) (steps : List (Text × Step)),
      Counted session.tally (session.usesAll steps) (session.runAll steps).tally :=
  ⟨fun template limit data t => (makes_fillWithin template limit templates data t).counted,
    fun spot enter inner dots target scopes =>
      spot.uses_link templates enter inner dots target scopes,
    fun _ _ t h => Provider.oneValue h t, fun _ _ _ _ _ _ h hscope => h.eq_scalar hscope,
    fun session steps => (session.unwraps_runAll steps).counted⟩

/-- A name, then a list whose elements are written twice, and the name again. The elements are used
once each, whatever is written of them. -/
def usedTemplate : Template :=
  .new (enclose ['a'] ++ enclose ("l|!".toList ++ enclose [] ++ enclose []) ++ enclose ['a'])

def usedData : Provider :=
  .map none [(['a'], .pointer (.counter 7)),
    (['l'], .sequence [.counter 7, .present (.counter 7)])]

/-- The template is filled twice, and the second fill goes on counting. -/
def usedSteps : List (Text × Step) :=
  [([], .new ['t'] usedTemplate.source), ([], .fill ['t'] usedData), ([], .render ['t'] usedData)]

theorem invoked_once_per_use_list :
    ((usedTemplate.fillWithin 9 .empty usedData).run .empty).result = .ok "122\n334".toList ∧
      Counted .empty (usedTemplate.uses 9 .empty usedData .empty)
        ((usedTemplate.fillWithin 9 .empty usedData).run .empty).tally ∧
      (usesOf 7 (usedTemplate.uses 9 .empty usedData .empty)).map Use.text? =
        [some ['1'], some ['2'], some ['3'], some ['4']] ∧
      (Provider.pointer (.counter 7)).OneValue ['1'] .empty (Tally.empty.bump 7) ∧
      (Scopes.Resolves [.scalar ['1']] 1 [] 0 (.scalar ['1']) ∧
        ([] : Text) = [] ∧ Provider.scalar ['1'] = .scalar ['1']) ∧
      ((Session.empty 9).runAll usedSteps).tally.count 7 = 8 ∧
      (usesOf 7 ((Session.empty 9).usesAll usedSteps)).map Use.text? =
        (List.range' 1 8).map fun n => some (integerText (n : Nat)) := by
  obtain ⟨hfill, -, hvalue, hscope, hsession⟩ := invoked_once_per_use .empty
  have hcounted := hfill usedTemplate 9 usedData .empty
  have hlength : (usesOf 7 (usedTemplate.uses 9 .empty usedData .empty)).length = 4 := by
    decide +kernel
  have hall : (usesOf 7 ((Session.empty 9).usesAll usedSteps)).length = 8 := by decide +kernel
  have hself : Scopes.Resolves [.scalar ['1']] 1 [] (max 1 1 - 1) (Core.scalar ['1']).toProvider :=
    .self rfl
  have hsteps := hsession (.empty 9) usedSteps
  refine ⟨by decide +kernel, hcounted, ?_, hvalue _ 7 .empty rfl,
    ⟨hself, hscope _ _ _ _ _ _ hself rfl⟩, ?_, ?_⟩
  · rw [hcounted.texts, hlength]
    decide
  · rw [hsteps.count, hall]
    rfl
  · rw [hsteps.texts, hall]
    rfl

end Stencil
