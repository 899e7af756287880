import Stencil.Proofs.FormlessSteps

/-!
# The compile cache

It makes no difference to the replies when forms get lost between the steps of a run, because the
forms are always those of the sources: a run begins without any templates, and what comes with a
step is new or was held before.
-/
namespace Stencil

/-! ### Losing forms -/

/-- A choice of forms to lose: of templates by id, of entries of maps, and of the own templates in
some cells of stored providers. -/
structure Losses where
  template : Text → Bool
  entry : Text → Text → Bool
  own : Text → Nat → Bool

/-- Nothing gets lost: each template keeps the form that it has. -/
def Losses.none : Losses where
  template _ := false
  entry _ _ := false
  own _ _ := false

def Template.drop (lost : Bool) (template : Template) : Template :=
  if lost then template.forget else template

def OwnTemplate.drop (lost : Nat → Bool) (own : OwnTemplate) : OwnTemplate :=
  { own with template := own.template.drop (lost own.cell) }

theorem Template.forget_drop (lost : Bool) (template : Template) :
    (template.drop lost).forget = template.forget := by
  cases lost <;> rfl

theorem Template.Faithful.drop {template : Template} (h : template.Faithful) (lost : Bool) :
    (template.drop lost).Faithful := by
  cases lost
  · exact h
  · exact template.faithful_forget

namespace Session

def drop (lost : Losses) (session : Session) : Session where
  templates := session.templates.map fun entry => (entry.1, entry.2.drop (lost.template entry.1))
  maps := session.maps.map fun entry =>
    (entry.1, entry.2.mapTemplates fun name template => template.drop (lost.entry entry.1 name))
  providers := session.providers.map fun entry =>
    (entry.1, entry.2.mapOwns (OwnTemplate.drop (lost.own entry.1)))
  tally := session.tally
  limit := session.limit

theorem forget_drop (lost : Losses) (session : Session) :
    (session.drop lost).forget = session.forget := by
  have hown (cells : Nat → Bool) (own : OwnTemplate) : (own.drop cells).forget = own.forget := by
    simp [OwnTemplate.forget, OwnTemplate.drop, Template.forget_drop]
  simp [forget, drop, Function.comp_def, Template.forget_drop, Provider.forget_mapOwns (hown _),
    TemplateMap.forget_mapTemplates fun _ _ => Template.forget_drop _ _]

theorem map_drop (lost : Losses) (session : Session) (id : Text) :
    (session.drop lost).map id =
      (session.map id).mapTemplates fun name template => template.drop (lost.entry id name) := by
  have hlookup := lookup_mapValues (fun key (templates : TemplateMap) =>
    templates.mapTemplates fun name template => template.drop (lost.entry key name)) id session.maps
  rw [Session.map, Session.map, drop, hlookup]
  cases session.maps.lookup id <;> rfl

/-- A session that lost forms holds the same templates, some of them without their forms, and no
others. -/
theorem holds_drop {lost : Losses} {session : Session} {template : Template}
    (h : (session.drop lost).Holds template) :
    ∃ before, session.Holds before ∧ ∃ gone, template = before.drop gone := by
  cases h with
  | @template id _ hget =>
    have hlookup := lookup_mapValues
      (fun key (template : Template) => template.drop (lost.template key)) id session.templates
    rw [drop, hlookup, Option.map_eq_some_iff] at hget
    obtain ⟨before, hbefore, rfl⟩ := hget
    exact ⟨before, .template hbefore, _, rfl⟩
  | @entry id name _ hget =>
    rw [map_drop, TemplateMap.get?_mapTemplates, Option.map_eq_some_iff] at hget
    obtain ⟨before, hbefore, rfl⟩ := hget
    exact ⟨before, .entry hbefore, _, rfl⟩
  | @own id v own hget hown =>
    have hlookup := lookup_mapValues
      (fun key (v : Provider) => v.mapOwns (OwnTemplate.drop (lost.own key))) id session.providers
    rw [drop, hlookup, Option.map_eq_some_iff] at hget
    obtain ⟨stored, hstored, rfl⟩ := hget
    rw [Provider.owns_mapOwns] at hown
    obtain ⟨before, hbefore, rfl⟩ := List.mem_map.1 hown
    exact ⟨before.template, .own hstored hbefore, _, rfl⟩

theorem Faithful.drop {session : Session} (h : session.Faithful) (lost : Losses) :
    (session.drop lost).Faithful := by
  intro template hholds
  obtain ⟨before, hbefore, gone, rfl⟩ := holds_drop hholds
  exact (h before hbefore).drop gone

end Session

/-! ### Runs -/

/-- A step of a run, with the map that it works on and the reply that it got. -/
structure Turn where
  map : Text
  step : Step
  reply : Reply

namespace Turn

/-- What is asked for, without the forms that come with it. Two runs are compared that ask the
same. -/
def question (turn : Turn) : Text × Step :=
  (turn.map, turn.step.forget)

def answer (turn : Turn) : Reply :=
  turn.reply.conceal turn.step

end Turn

/-- The turns of a run from one session to another. Before each step the next forms of the list get
lost. The templates that come with a step are new, or copies of what the session holds then. -/
inductive Session.Plays : Session → List Losses → List Turn → Session → Prop
  | nil {session : Session} : Plays session [] [] session
  | cons {session last : Session} {more : List Losses} {turns : List Turn} (lost : Losses)
    (map : Text) (step : Step) :
    step.DrawnFrom (session.drop lost) →
    Plays ((session.drop lost).run map step).1 more turns last →
    Plays session (lost :: more) (⟨map, step, ((session.drop lost).run map step).2⟩ :: turns) last

namespace Session

theorem faithful_empty (limit : Nat) : (empty limit).Faithful := by
  intro template hholds
  cases hholds with
  | template hget => cases hget
  | entry hget => cases hget
  | own hget hown => cases hget

theorem Plays.faithful {session last : Session} {lost : List Losses} {turns : List Turn}
    (h : session.Plays lost turns last) (hsession : session.Faithful) : last.Faithful := by
  induction h with
  | nil => exact hsession
  | @cons session last more turns lost map step hstep hrest ih =>
    exact ih ((effect_run _ map step).faithful (hsession.drop lost) hstep)

/-- Everything can be asked for, whatever forms get lost. So no run is excluded by the losses that
another one has. -/
theorem exists_plays (session : Session) {lost : List Losses} {turns : List Turn}
    (h : lost.length = turns.length) :
    ∃ turns' last, session.Plays lost turns' last ∧
      turns'.map Turn.question = turns.map Turn.question := by
  induction turns generalizing session lost with
  | nil =>
    obtain rfl := List.length_eq_zero_iff.1 h
    exact ⟨[], session, .nil, rfl⟩
  | cons turn turns ih =>
    cases lost with
    | nil => cases h
    | cons first more =>
      obtain ⟨turns', last, hplays, hquestions⟩ :=
        ih ((session.drop first).run turn.map turn.step.forget).1 (Nat.succ.inj h)
      -- templates without forms can always be brought, whatever the session has lost
      have hdrawn : turn.step.forget.DrawnFrom (session.drop first) :=
        fun _ hmem => .inl (Step.form_eq_none_of_forget hmem)
      refine ⟨_, last, .cons first turn.map turn.step.forget hdrawn hplays, ?_⟩
      rw [List.map_cons, List.map_cons, hquestions, Turn.question, Step.forget_forget]
      rfl

theorem conceal_congr {step step' : Step} (h : step'.forget = step.forget)
    (outcome : Session × Reply) : conceal step' outcome = conceal step outcome := by
  rw [conceal, conceal, ← Reply.conceal_forget step', h, Reply.conceal_forget]

/-- Steps that differ in forms only have the same effect on sessions that differ in forms only, and
get the same reply up to forms. -/
theorem conceal_run {session session' : Session} {step step' : Step} (hsession : session.Faithful)
    (hsession' : session'.Faithful) (hstep : step.DrawnFrom session)
    (hstep' : step'.DrawnFrom session') (hforget : session'.forget = session.forget)
    (hsame : step'.forget = step.forget) (map : Text) :
    conceal step' (session'.run map step') = conceal step (session.run map step) := by
  calc conceal step' (session'.run map step')
      = conceal step' (session'.forget.run map step'.forget) :=
        (run_forget hsession' (hstep'.faithful hsession') map).symm
    _ = conceal step (session.forget.run map step.forget) := by
        rw [hforget, hsame, conceal_congr hsame]
    _ = conceal step (session.run map step) := run_forget hsession (hstep.faithful hsession) map

/-- The answers are the same, whatever forms get lost, and the sessions differ in forms only when
the runs are over. -/
theorem Plays.answers_eq {session session' last last' : Session} {lost lost' : List Losses}
    {turns turns' : List Turn} (h : session.Plays lost turns last)
    (h' : session'.Plays lost' turns' last') (hsession : session.Faithful)
    (hsession' : session'.Faithful) (hforget : session'.forget = session.forget)
    (hquestions : turns'.map Turn.question = turns.map Turn.question) :
    turns'.map Turn.answer = turns.map Turn.answer ∧ last'.forget = last.forget := by
  induction h generalizing session' lost' turns' with
  | nil =>
    obtain rfl := List.map_eq_nil_iff.1 hquestions
    cases h'
    exact ⟨rfl, hforget⟩
  | @cons session last more turns lost map step hstep hrest ih =>
    cases h' with
    | nil => cases hquestions
    | @cons _ _ more' turns' lost' map' step' hstep' hrest' =>
      simp only [List.map_cons, List.cons.injEq, Turn.question, Prod.mk.injEq] at hquestions
      obtain ⟨⟨rfl, hsame⟩, hquestions⟩ := hquestions
      -- the two runs lose different forms here, and agree again once all are forgotten
      have hdrop := hsession.drop lost
      have hdrop' := hsession'.drop lost'
      have houtcome := conceal_run hdrop hdrop' hstep hstep'
        (by rw [forget_drop, forget_drop, hforget]) hsame map'
      obtain ⟨hanswers, hlast⟩ := ih hrest' ((effect_run _ map' step).faithful hdrop hstep)
        ((effect_run _ map' step').faithful hdrop' hstep') (congrArg Prod.fst houtcome) hquestions
      exact ⟨congrArg₂ List.cons (congrArg Prod.snd houtcome) hanswers, hlast⟩

/-- Forms are only those of the sources, so none is kept for a source that does not compile.
Whatever forms get lost, the same can be asked for, and the answers are the same. A step keeps the
sources, names and forms of what it does not write. -/
theorem cache_invisible {limit : Nat} {lost : List Losses} {turns : List Turn} {last : Session}
    (h : Plays (.empty limit) lost turns last) :
    (∀ template, last.Holds template → template.form = none ∨
        ∃ compiled, Stencil.compile template.source = .ok compiled ∧
          template.form = some compiled) ∧
      (∀ lost' : List Losses, lost'.length = turns.length →
        ∃ turns' last', Plays (.empty limit) lost' turns' last' ∧
          turns'.map Turn.question = turns.map Turn.question) ∧
      (∀ lost' turns' last', Plays (.empty limit) lost' turns' last' →
        turns'.map Turn.question = turns.map Turn.question →
        turns'.map Turn.answer = turns.map Turn.answer ∧ last'.forget = last.forget) ∧
      ∀ map step, last.Keeps (step.Writes last.templates map) (last.run map step).1 := by
  refine ⟨fun template hholds => ?_, fun lost' hlength => exists_plays _ hlength,
    fun lost' turns' last' h' hquestions => ?_, last.keeps_run⟩
  · cases hform : template.form with
    | none => exact .inl rfl
    | some compiled =>
      have hfaithful := h.faithful (faithful_empty limit) template hholds
      exact .inr ⟨compiled, hfaithful _ hform, rfl⟩
  · exact h.answers_eq h' (faithful_empty limit) (faithful_empty limit) rfl hquestions

/-- All templates that are held by id lose their forms, and those in maps and in data keep
theirs. -/
def losesTemplates : Losses :=
  { Losses.none with template := fun _ => true }

/-- A template is compiled, copied into a map and filled, and then its form gets lost. The last step
shows that, and no other step would. -/
theorem cache_invisible_copied :
    ∃ lost turns last, Plays (.empty 9) lost turns last ∧
      turns.map Turn.step = [.new ['a'] "\x7b\x7bx\x7d\x7d".toList, .compile ['a'],
        .insertCopy ['n'] ['a'], .fill ['a'] (.map (some ⟨0, .new ['b']⟩) []),
        .isCompiled ['a']] ∧
      turns.getLast?.map Turn.reply = some (.flag false) ∧
      (∀ template, last.Holds template → template.form = none ∨
        ∃ compiled, Stencil.compile template.source = .ok compiled ∧
          template.form = some compiled) ∧
      (∀ lost' : List Losses, lost'.length = turns.length →
        ∃ turns' last', Plays (.empty 9) lost' turns' last' ∧
          turns'.map Turn.question = turns.map Turn.question) ∧
      (∀ lost' turns' last', Plays (.empty 9) lost' turns' last' →
        turns'.map Turn.question = turns.map Turn.question →
        turns'.map Turn.answer = turns.map Turn.answer ∧ last'.forget = last.forget) ∧
      ∀ map step, last.Keeps (step.Writes last.templates map) (last.run map step).1 := by
  have hnone {step : Step} {session : Session} (h : step.templates = []) :
      step.DrawnFrom session := fun template hmem => by simp [h] at hmem
  have hplays : Plays (.empty 9) _ _ _ :=
    .cons .none ['m'] (.new ['a'] "\x7b\x7bx\x7d\x7d".toList) (hnone rfl) <|
    .cons .none ['m'] (.compile ['a']) (hnone rfl) <|
    .cons .none ['m'] (.insertCopy ['n'] ['a']) (hnone rfl) <|
    .cons .none ['m'] (.fill ['a'] (.map (some ⟨0, .new ['b']⟩) []))
      (fun template hmem => .inl (by
        obtain rfl := List.mem_singleton.1 hmem
        rfl)) <|
    .cons losesTemplates ['m'] (.isCompiled ['a']) (hnone rfl) .nil
  exact ⟨_, _, _, hplays, rfl, rfl, cache_invisible hplays⟩

end Session

end Stencil
