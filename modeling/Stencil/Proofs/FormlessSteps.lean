import Mathlib.Data.List.DropRight
import Stencil.Proofs.SessionEffects

/-!
# Steps without forms

A session can do without the forms of its templates, and a step without those of the templates that
come with it. Where forms are those of the sources, the step has the same effect then and the same
reply, but for what these tell about the forms.
-/
namespace Stencil

/-! ### Maps and providers -/

theorem Named.map_put {α β : Type} (f : α → β) (name : Text) (value : α) (values : Named α) :
    (put name value values).map (fun entry => (entry.1, f entry.2)) =
      put name (f value) (values.map fun entry => (entry.1, f entry.2)) := by
  induction values with
  | nil => rfl
  | cons entry rest ih =>
    simp only [put, List.map_cons]
    split
    · rfl
    · rw [List.map_cons, ih]

namespace TemplateMap

theorem get?_of_mem {templates : TemplateMap} {entry : Text × Template}
    (h : entry ∈ templates.entries) : templates.get? entry.1 = some entry.2 := by
  obtain ⟨entries, hsorted⟩ := templates
  change entries.lookup entry.1 = some entry.2
  induction entries with
  | nil => cases h
  | cons head rest ih =>
    obtain ⟨hhead, hrest⟩ := List.pairwise_cons.1 hsorted
    rw [lookup_entry]
    rcases List.mem_cons.1 h with rfl | hmem
    · exact if_pos rfl
    · have hlt : head.1 < entry.1 := hhead entry hmem
      rw [if_neg fun heq => List.lt_irrefl _ (heq ▸ hlt)]
      exact ih hrest hmem

theorem eq_of_entries {a b : TemplateMap} (h : a.entries = b.entries) : a = b := by
  cases a
  cases b
  cases h
  rfl

theorem forget_mapTemplates {f : Text → Template → Template}
    (h : ∀ name (template : Template), (f name template).forget = template.forget)
    (templates : TemplateMap) : (templates.mapTemplates f).forget = templates.forget := by
  refine eq_of_entries ?_
  simp only [forget, mapTemplates, List.map_map]
  exact List.map_congr_left fun entry _ => congrArg (Prod.mk entry.1) (h entry.1 entry.2)

@[simp] theorem forget_forget (templates : TemplateMap) :
    templates.forget.forget = templates.forget :=
  forget_mapTemplates (f := fun _ template => template.forget) (fun _ _ => rfl) templates

theorem forget_insertEntry (name : Text) (template : Template) (entries : List (Text × Template)) :
    (insertEntry name template entries).map (fun entry => (entry.1, entry.2.forget)) =
      insertEntry name template.forget (entries.map fun entry => (entry.1, entry.2.forget)) := by
  induction entries with
  | nil => rfl
  | cons entry rest ih =>
    simp only [insertEntry, List.map_cons]
    split
    · rfl
    split
    · rfl
    · rw [List.map_cons, ih]

theorem forget_insert (templates : TemplateMap) (name : Text) (template : Template) :
    (templates.insert name template).forget = templates.forget.insert name template.forget :=
  eq_of_entries (forget_insertEntry name template templates.entries)

theorem forget_extend (templates : TemplateMap) (entries : List (Text × Template)) :
    (templates.extend entries).forget =
      templates.forget.extend (entries.map fun entry => (entry.1, entry.2.forget)) := by
  induction entries generalizing templates with
  | nil => rfl
  | cons entry rest ih =>
    have hrest := ih (templates.insert entry.1 entry.2)
    rw [forget_insert] at hrest
    exact hrest

theorem forget_settle (notes : List Note) (templates : TemplateMap) :
    (templates.settle notes).forget = templates.forget := by
  refine forget_mapTemplates (fun name template => ?_) templates
  split <;> rfl

theorem forget_checked (templates : TemplateMap) : templates.checked.forget = templates.forget := by
  unfold checked
  split
  · exact forget_mapTemplates (f := fun _ template => template.prepare) (fun _ _ => rfl) templates
  · refine forget_mapTemplates (fun name template => ?_) templates
    split <;> rfl

theorem contains_forget (templates : TemplateMap) (name : Text) :
    templates.forget.contains name = templates.contains name := by
  rw [contains, get?_forget, Option.isSome_map]
  rfl

theorem names_forget (templates : TemplateMap) : templates.forget.names = templates.names := by
  simp [names, forget, mapTemplates]

theorem size_forget (templates : TemplateMap) : templates.forget.size = templates.size :=
  List.length_map _

theorem sources_forget (templates : TemplateMap) :
    (templates.forget.entries.map fun entry => (entry.1, entry.2.source)) =
      templates.entries.map fun entry => (entry.1, entry.2.source) := by
  simp [forget, mapTemplates]

theorem problem?_forget (templates : TemplateMap) (name : Text) {template : Template}
    (h : template.Faithful) :
    templates.forget.problem? name template.forget = templates.problem? name template := by
  unfold problem?
  rw [h.compile_forget]
  simp only [contains_forget]

theorem firstProblem?_forget {templates : TemplateMap} (h : templates.Faithful) :
    templates.forget.firstProblem? = templates.firstProblem? := by
  have hentries :
      templates.forget.entries = templates.entries.map fun entry => (entry.1, entry.2.forget) := rfl
  unfold firstProblem?
  rw [hentries, List.findSome?_map, ← List.head?_filterMap, ← List.head?_filterMap]
  refine congrArg List.head? (List.filterMap_congr fun entry hentry => ?_)
  rw [Function.comp_apply, templates.problem?_forget entry.1 (h entry hentry)]

theorem check_forget {templates : TemplateMap} (h : templates.Faithful) :
    templates.forget.check = templates.check := by
  rw [check, check, firstProblem?_forget h]

end TemplateMap

theorem Provider.forget_settle (notes : List Note) (v : Provider) :
    (v.settle notes).forget = v.forget := by
  rw [settle_eq]
  refine forget_mapOwns (fun own => ?_) v
  unfold OwnTemplate.settle
  split <;> rfl

@[simp] theorem Provider.forget_forget (v : Provider) : v.forget.forget = v.forget :=
  forget_mapOwns (f := OwnTemplate.forget) (fun _ => rfl) v

/-! ### Sessions -/

/-- The step with templates that have no forms: what is asked for, and nothing that was compiled
before. -/
def Step.forget : Step → Step
  | .fill id data => .fill id data.forget
  | .render id data => .render id data.forget
  | .fillInto id data sink => .fillInto id data.forget sink
  | .store id data => .store id data.forget
  | .replaceMap pairs => .replaceMap (pairs.map fun pair => (pair.1, pair.2.forget))
  | .extendMap pairs => .extendMap (pairs.map fun pair => (pair.1, pair.2.forget))
  | step => step

theorem Step.forget_forget (step : Step) : step.forget.forget = step.forget := by
  cases step <;> simp [forget]

theorem Step.form_eq_none_of_forget {step : Step} {template : Template}
    (h : template ∈ step.forget.templates) : template.form = none := by
  have howns {v : Provider} (h : template ∈ v.forget.owns.map OwnTemplate.template) :
      template.form = none := by
    rw [Provider.forget, Provider.owns_mapOwns, List.map_map] at h
    obtain ⟨own, -, rfl⟩ := List.mem_map.1 h
    rfl
  have hpairs {pairs : List (Text × Template)}
      (h : template ∈ (pairs.map fun pair => (pair.1, pair.2.forget)).map Prod.snd) :
      template.form = none := by
    rw [List.map_map] at h
    obtain ⟨pair, -, rfl⟩ := List.mem_map.1 h
    rfl
  cases step with
  | fill id v | render id v | fillInto id v sink | store id v => exact howns h
  | replaceMap pairs | extendMap pairs => exact hpairs h
  | _ => cases h

/-- The reply to a step without what it tells about forms. A description ends after its last
colon then. -/
def Reply.conceal : Step → Reply → Reply
  | .isCompiled _, .flag _ => .flag false
  | .describe _, .text shown => .text (shown.rdropWhile (· ≠ ':'))
  | _, .template found => .template (found.map Template.forget)
  | _, reply => reply

/-- A description shows the form after the last colon, and nowhere before it. -/
theorem Template.rdropWhile_describe (template : Template) :
    template.forget.describe.rdropWhile (· ≠ ':') = template.describe.rdropWhile (· ≠ ':') := by
  have hflag (before : Text) (flag : Bool) :
      (before ++ boolText flag ++ " \x7d".toList).rdropWhile (· ≠ ':') =
        before.rdropWhile (· ≠ ':') := by
    cases flag <;> simp [List.rdropWhile, boolText]
  unfold describe
  rw [hflag, hflag]
  rfl

theorem Reply.conceal_forget (step : Step) (reply : Reply) :
    reply.conceal step.forget = reply.conceal step := by
  cases step <;> cases reply <;> rfl

namespace Session

/-- The session without the forms of its templates: those held by id, in maps and in stored data. -/
def forget (session : Session) : Session where
  templates := session.templates.map fun entry => (entry.1, entry.2.forget)
  maps := session.maps.map fun entry => (entry.1, entry.2.forget)
  providers := session.providers.map fun entry => (entry.1, entry.2.forget)
  tally := session.tally
  limit := session.limit

/-- What a step leaves and replies, without the forms. Only the steps that show forms have other
replies. -/
def conceal (step : Step) (outcome : Session × Reply) : Session × Reply :=
  (outcome.1.forget, outcome.2.conceal step)

@[simp] theorem forget_forget (session : Session) : session.forget.forget = session.forget := by
  simp [forget, Function.comp_def]

theorem lookup_forget (session : Session) (id : Text) :
    session.forget.templates.lookup id = (session.templates.lookup id).map Template.forget :=
  lookup_mapValues (fun _ template => Template.forget template) id session.templates

theorem map_forget (session : Session) (id : Text) :
    session.forget.map id = (session.map id).forget := by
  have hlookup := lookup_mapValues (fun _ templates => TemplateMap.forget templates) id session.maps
  rw [Session.map, Session.map, forget, hlookup]
  cases session.maps.lookup id <;> rfl

theorem forget_setMap (session : Session) (id : Text) (templates : TemplateMap) :
    (session.setMap id templates).forget = session.forget.setMap id templates.forget := by
  simp [setMap, forget, Named.map_put TemplateMap.forget]

theorem forget_setTemplate (session : Session) (id : Text) (template : Template) :
    (session.setTemplate id template).forget = session.forget.setTemplate id template.forget := by
  simp [setTemplate, forget, Named.map_put Template.forget]

theorem forget_store (session : Session) (id : Text) (v : Provider) :
    { session with providers := Named.put id v session.providers }.forget =
      { session.forget with providers := Named.put id v.forget session.forget.providers } := by
  simp [forget, Named.map_put Provider.forget]

theorem forget_runFill (session : Session) (id : Text) (template : Template)
    (templates : TemplateMap) (data : Provider) :
    (session.runFill id template templates data).1.forget =
      { session.forget.setTemplate id template.forget with
        tally :=
          ((template.fillWithin session.limit templates data).run session.tally).tally } := by
  simp [runFill, forget, setTemplate, Named.map_put Template.forget, Function.comp_def,
    Provider.forget_settle]

/-! ### Steps -/

variable {session : Session} {step : Step}

theorem Faithful.map (h : session.Faithful) (id : Text) : (session.map id).Faithful :=
  fun _ hentry => h _ (.entry (TemplateMap.get?_of_mem hentry))

theorem conceal_withTemplate {id : Text} {f f' : Template → Session × Reply}
    (h : ∀ template, session.templates.lookup id = some template →
      conceal step (f' template.forget) = conceal step (f template)) :
    conceal step (session.forget.withTemplate id f') =
      conceal step (session.withTemplate id f) := by
  unfold withTemplate
  rw [lookup_forget]
  cases hget : session.templates.lookup id with
  | none => simp [conceal]
  | some template => exact h template hget

theorem runFill_forget (session : Session) (id : Text) {template : Template}
    {templates : TemplateMap} {data : Provider} (htemplate : template.Faithful)
    (htemplates : templates.Faithful) (hdata : data.Faithful) :
    (session.forget.runFill id template.forget templates.forget data.forget).1.forget =
        (session.runFill id template templates data).1.forget ∧
      (session.forget.runFill id template.forget templates.forget data.forget).2.result =
        (session.runFill id template templates data).2.result := by
  obtain ⟨hresult, htally⟩ :=
    run_fillWithin_forget htemplate htemplates hdata session.limit session.tally
  refine ⟨?_, hresult⟩
  rw [forget_runFill, forget_runFill, forget_forget, Template.forget_forget]
  exact congrArg
    (fun tally => { session.forget.setTemplate id template.forget with tally := tally }) htally

theorem fillWith_forget {map : Text} (id : Text) {template : Template} {data : Provider}
    (htemplate : template.Faithful) (hmap : (session.map map).Faithful) (hdata : data.Faithful) :
    (session.forget.fillWith map id template.forget data.forget).1.forget =
        (session.fillWith map id template data).1.forget ∧
      (session.forget.fillWith map id template.forget data.forget).2 =
        (session.fillWith map id template data).2 := by
  -- the two fills may note different uses, but settling changes nothing but forms
  obtain ⟨hnext, hresult⟩ := session.runFill_forget id htemplate hmap hdata
  rw [← map_forget] at hnext hresult
  refine ⟨?_, hresult⟩
  simp only [fillWith]
  rw [forget_setMap, forget_setMap, hnext, TemplateMap.forget_settle, TemplateMap.forget_settle,
    map_forget, TemplateMap.forget_forget]

theorem conceal_insert (map name : Text) (template : Template) :
    conceal step (session.forget.insert map name template.forget) =
      conceal step (session.insert map name template) := by
  have hconceal (found : Option Template) :
      (Reply.template (found.map Template.forget)).conceal step =
        (Reply.template found).conceal step := by
    cases step <;> simp [Reply.conceal, Function.comp_def]
  simp only [conceal, insert]
  rw [forget_setMap, forget_setMap, forget_forget, map_forget, ← TemplateMap.forget_insert,
    TemplateMap.forget_forget, TemplateMap.get?_forget, hconceal]

/-- The step has the same effect and reply without the forms of the session and its own. This is
what makes the forms invisible. -/
theorem step_forget (hsession : session.Faithful)
    (hstep : ∀ template ∈ step.templates, template.Faithful) (map : Text) :
    conceal step (session.forget.step map step.forget) = conceal step (session.step map step) := by
  cases step with
  | new id source => simp [Session.step, Step.forget, conceal, forget_setTemplate]
  | clone id target =>
    refine conceal_withTemplate fun template _ => ?_
    simp [conceal, forget_setTemplate]
  | source id =>
    refine conceal_withTemplate fun template _ => ?_
    simp [conceal]
  | describe id =>
    refine conceal_withTemplate fun template _ => ?_
    simp only [conceal, forget_forget, Reply.conceal, template.rdropWhile_describe]
  | isCompiled id =>
    refine conceal_withTemplate fun template _ => ?_
    simp [conceal, Reply.conceal]
  | compile id =>
    refine conceal_withTemplate fun template hget => ?_
    have htemplate : template.Faithful := hsession _ (.template hget)
    simp [conceal, forget_setTemplate, htemplate.compile_forget]
  | fill id data =>
    refine conceal_withTemplate fun template hget => ?_
    have hdata : data.Faithful := fun own hown => hstep _ (List.mem_map_of_mem hown)
    obtain ⟨hnext, hresult⟩ :=
      fillWith_forget id (hsession _ (.template hget)) (hsession.map map) hdata
    exact congrArg₂ Prod.mk hnext (congrArg Reply.filled hresult)
  | render id data =>
    refine conceal_withTemplate fun template hget => ?_
    have hdata : data.Faithful := fun own hown => hstep _ (List.mem_map_of_mem hown)
    obtain ⟨hnext, hresult⟩ :=
      session.runFill_forget id (hsession _ (.template hget)) TemplateMap.faithful_empty hdata
    exact congrArg₂ Prod.mk hnext (congrArg Reply.filled hresult)
  | fillInto id data sink =>
    refine conceal_withTemplate fun template hget => ?_
    have hdata : data.Faithful := fun own hown => hstep _ (List.mem_map_of_mem hown)
    obtain ⟨hnext, hresult⟩ :=
      fillWith_forget id (hsession _ (.template hget)) (hsession.map map) hdata
    exact congrArg₂ Prod.mk hnext (congrArg (Reply.conceal _ ∘ deliver sink) hresult)
  | store id data => simp [Session.step, Step.forget, conceal, forget_store]
  | clearMap => simp [Session.step, Step.forget, conceal, forget_setMap]
  | cloneMap target => simp [Session.step, Step.forget, conceal, forget_setMap, map_forget]
  | replaceMap pairs =>
    have hpairs : TemplateMap.ofList (pairs.map fun pair => (pair.1, pair.2.forget)) =
        (TemplateMap.ofList pairs).forget := (TemplateMap.empty.forget_extend pairs).symm
    simp [Session.step, Step.forget, conceal, forget_setMap, hpairs]
  | extendMap pairs =>
    have hpairs := (session.map map).forget_extend pairs
    simp [Session.step, Step.forget, conceal, forget_setMap, map_forget, ← hpairs]
  | insert name source => exact conceal_insert map name (.new source)
  | insertCopy name id =>
    exact conceal_withTemplate fun template _ => conceal_insert map name template
  | get name =>
    simp only [Session.step, Step.forget, conceal]
    rw [map_forget, TemplateMap.get?_forget]
    simp [Reply.conceal, Function.comp_def]
  | contains name =>
    simp [Session.step, Step.forget, conceal, map_forget, TemplateMap.contains_forget]
  | size => simp [Session.step, Step.forget, conceal, map_forget, TemplateMap.size_forget]
  | names => simp [Session.step, Step.forget, conceal, map_forget, TemplateMap.names_forget]
  | entries => simp [Session.step, Step.forget, conceal, map_forget, TemplateMap.sources_forget]
  | check =>
    have hcheck := TemplateMap.check_forget (hsession.map map)
    simp [Session.step, Step.forget, conceal, forget_setMap, map_forget, hcheck,
      TemplateMap.forget_checked]
  | load settings directory =>
    simp only [Session.step, Step.forget]
    split <;> simp [conceal, forget_setMap]

theorem run_forget (hsession : session.Faithful)
    (hstep : ∀ template ∈ step.templates, template.Faithful) (map : Text) :
    conceal step (session.forget.run map step.forget) = conceal step (session.run map step) := by
  have hmention : session.forget.setMap map (session.forget.map map) =
      (session.setMap map (session.map map)).forget := by
    rw [map_forget, forget_setMap]
  unfold run
  rw [hmention]
  exact step_forget (fun template h => hsession template (holds_of_mention h)) hstep map

end Session

end Stencil
