import Stencil.Proofs.Forms

/-!
# What a step does to a session

A step writes the templates, entries and providers that it is about. It may also compile any of the
others, in their places, and does nothing else to them. What it writes comes with the step, is new,
or is a copy of something that the session holds, so the templates of a session keep only forms that
their sources compile to.
-/
namespace Stencil

/-! ### Values by name -/

theorem Named.lookup_put {α : Type} (name key : Text) (value : α) (values : Named α) :
    (put name value values).lookup key = if key = name then some value else values.lookup key := by
  induction values with
  | nil => exact lookup_entry key name value []
  | cons entry rest ih =>
    obtain ⟨first, old⟩ := entry
    unfold put
    split
    · rename_i hfirst
      subst hfirst
      rw [lookup_entry, lookup_entry]
      split <;> rfl
    · rename_i hfirst
      rw [lookup_entry, lookup_entry, ih]
      by_cases h : key = first
      · rw [if_pos h, if_pos h, if_neg (h ▸ hfirst)]
      · rw [if_neg h, if_neg h]

/-- A later entry of the same name replaces an earlier one. Names that are not among the entries
keep the templates that they had. -/
theorem TemplateMap.get?_extend (templates : TemplateMap) (entries : List (Text × Template))
    (name : Text) :
    (templates.extend entries).get? name = templates.get? name ∨
      ∃ template, (name, template) ∈ entries ∧
        (templates.extend entries).get? name = some template := by
  induction entries generalizing templates with
  | nil => exact .inl rfl
  | cons entry rest ih =>
    obtain ⟨key, template⟩ := entry
    rcases ih (templates.insert key template) with hsame | ⟨later, hmem, hlater⟩
    · rw [get?_insert] at hsame
      split at hsame
      · rename_i h
        exact .inr ⟨template, h ▸ List.mem_cons_self, hsame⟩
      · exact .inl hsame
    · exact .inr ⟨later, List.mem_cons_of_mem _ hmem, hlater⟩

/-- Loaded templates have no forms: they are sources that were read from files, and nothing compiles
them before they are asked for. -/
theorem Directory.form_eq_none_of_loadEntries {ending : Text} {directory : Directory}
    {entries : List (Text × Template)} (h : directory.loadEntries ending = .ok entries) :
    ∀ entry ∈ entries, entry.2.form = none := by
  induction directory generalizing entries with
  | nil => cases h; simp
  | cons item rest ih =>
    rw [loadEntries] at h
    split at h
    · exact ih h
    · split at h
      · cases h
      · cases hrest : loadEntries ending rest with
        | error fault => rw [hrest] at h; cases h
        | ok more =>
          rw [hrest] at h
          cases h
          exact List.forall_mem_cons.2 ⟨rfl, ih hrest⟩

/-! ### Compiling in place -/

/-- The second template is the first one, and may have been compiled. Its source is the same, so it
fills like the first one. -/
def Template.Prepares (before after : Template) : Prop :=
  after = before ∨ after = before.prepare

/-- The second provider is the first one, and some of its own templates may have been compiled. All
else in it is the same. -/
def Provider.Prepares (before after : Provider) : Prop :=
  ∃ f, (∀ own : OwnTemplate, f own = own ∨ f own = { own with template := own.template.prepare }) ∧
    after = before.mapOwns f

mutual

theorem Provider.mapOwns_id : ∀ v : Provider, v.mapOwns id = v
  | .scalar _ => rfl
  | .sequence items => congrArg sequence (mapOwnsItems_id items)
  | .map own entries => by simp [mapOwns, mapOwnsEntries_id entries]
  | .absent => rfl
  | .present inner => congrArg present inner.mapOwns_id
  | .pointer inner => congrArg pointer inner.mapOwns_id
  | .callback inner => congrArg callback inner.mapOwns_id
  | .delegate own inner => by simp [mapOwns, inner.mapOwns_id]
  | .counter _ => rfl
  | .json _ => rfl

theorem Provider.mapOwnsItems_id : ∀ items : List Provider, mapOwnsItems id items = items
  | [] => rfl
  | item :: rest => congrArg₂ List.cons item.mapOwns_id (mapOwnsItems_id rest)

theorem Provider.mapOwnsEntries_id :
    ∀ entries : List (Text × Provider), mapOwnsEntries id entries = entries
  | [] => rfl
  | (key, value) :: rest =>
    congrArg₂ List.cons (congrArg (Prod.mk key) value.mapOwns_id) (mapOwnsEntries_id rest)

end

namespace Template.Prepares

variable {before after : Template}

theorem faithful (h : before.Prepares after) (hbefore : before.Faithful) : after.Faithful := by
  rcases h with rfl | rfl
  · exact hbefore
  · exact hbefore.prepare

theorem source_eq (h : before.Prepares after) : after.source = before.source := by
  rcases h with rfl | rfl <;> rfl

theorem form_eq (h : before.Prepares after) {compiled : Compiled}
    (hform : before.form = some compiled) : after.form = some compiled := by
  rcases h with rfl | rfl
  · exact hform
  · rw [prepare, compile, hform]
    rfl

end Template.Prepares

theorem Provider.Prepares.refl (v : Provider) : v.Prepares v :=
  ⟨id, fun _ => .inl rfl, v.mapOwns_id.symm⟩

theorem Provider.Prepares.faithful {before after : Provider} (h : before.Prepares after)
    (hbefore : before.Faithful) : after.Faithful := by
  obtain ⟨f, hf, rfl⟩ := h
  intro own hown
  rw [owns_mapOwns] at hown
  obtain ⟨inner, hinner, rfl⟩ := List.mem_map.1 hown
  rcases hf inner with h | h
  · rw [h]
    exact hbefore inner hinner
  · rw [h]
    exact (hbefore inner hinner).prepare

/-- Settling only compiles. The own templates that a fill has used keep their forms in the provider
that is stored, and nothing else there changes. -/
theorem Provider.prepares_settle (notes : List Note) (v : Provider) :
    v.Prepares (v.settle notes) := by
  refine ⟨_, fun own => ?_, v.settle_eq notes⟩
  unfold OwnTemplate.settle
  split
  · exact .inr rfl
  · exact .inl rfl

/-! ### What a step writes -/

inductive Slot
  | template (id : Text)
  | entry (map name : Text)
  | provider (id : Text)

/-- The templates that come with a step: the own templates of its data, or the entries for a map.
Other steps bring none. -/
def Step.templates : Step → List Template
  | .fill _ data => data.owns.map OwnTemplate.template
  | .render _ data => data.owns.map OwnTemplate.template
  | .fillInto _ data _ => data.owns.map OwnTemplate.template
  | .store _ data => data.owns.map OwnTemplate.template
  | .replaceMap pairs => pairs.map Prod.snd
  | .extendMap pairs => pairs.map Prod.snd
  | _ => []

/-- What a step is documented to write, when these templates are held by id. A step that copies an
id without a template writes nothing. -/
inductive Step.Writes (held : Named Template) (map : Text) : Step → Slot → Prop
  | new {id source : Text} : Writes held map (.new id source) (.template id)
  | clone {id target : Text} : (held.lookup id).isSome →
    Writes held map (.clone id target) (.template target)
  | store {id : Text} {data : Provider} : Writes held map (.store id data) (.provider id)
  | clearMap {name : Text} : Writes held map .clearMap (.entry map name)
  | cloneMap {target name : Text} : Writes held map (.cloneMap target) (.entry target name)
  | replaceMap {pairs : List (Text × Template)} {name : Text} :
    Writes held map (.replaceMap pairs) (.entry map name)
  | extendMap {pairs : List (Text × Template)} {name : Text} {template : Template} :
    (name, template) ∈ pairs → Writes held map (.extendMap pairs) (.entry map name)
  | insert {name source : Text} : Writes held map (.insert name source) (.entry map name)
  | insertCopy {name id : Text} : (held.lookup id).isSome →
    Writes held map (.insertCopy name id) (.entry map name)
  | load {settings : Settings} {directory : Except TransferFault Directory}
      {templates : TemplateMap} {name : Text} :
    directory.bind (Directory.load settings.ending) = .ok templates →
    Writes held map (.load settings directory) (.entry map name)

namespace Session

variable (session : Session)

/-- The session holds this template by id, in a map, or in a provider that it stores. These are all
the places where a form can be kept. -/
inductive Holds : Template → Prop
  | template {id : Text} {template : Template} : session.templates.lookup id = some template →
    Holds template
  | entry {map name : Text} {template : Template} :
    (session.map map).get? name = some template → Holds template
  | own {id : Text} {v : Provider} {own : OwnTemplate} : session.providers.lookup id = some v →
    own ∈ v.owns → Holds own.template

/-- A template that a step may write: one that comes with the step, a new one without a form, or one
that the session holds. -/
def Brings (step : Step) (template : Template) : Prop :=
  template.form = none ∨ template ∈ step.templates ∨ session.Holds template

end Session

/-- What is in a slot was compiled at most, or it is written with something that the step brings. A
slot that is not written is not emptied either. -/
def SlotEffect {α : Type} (prepares : α → α → Prop) (written : Prop) (brings : α → Prop)
    (before after : Option α) : Prop :=
  Option.Rel prepares before after ∨ written ∧ ∀ a ∈ after, brings a

/-- All that a step does to the slots of a session: each is left alone, compiled in its place, or
written by what the step brings. -/
structure Session.Effect (session : Session) (map : Text) (step : Step) (next : Session) :
    Prop where
  template : ∀ id, SlotEffect Template.Prepares (step.Writes session.templates map (.template id))
    (session.Brings step) (session.templates.lookup id) (next.templates.lookup id)
  entry : ∀ target name, SlotEffect Template.Prepares
    (step.Writes session.templates map (.entry target name))
    (session.Brings step) ((session.map target).get? name) ((next.map target).get? name)
  provider : ∀ id, SlotEffect Provider.Prepares (step.Writes session.templates map (.provider id))
    (fun v => ∀ own ∈ v.owns, session.Brings step own.template)
    (session.providers.lookup id) (next.providers.lookup id)

namespace SlotEffect

variable {α : Type} {prepares : α → α → Prop} {written : Prop} {brings : α → Prop}

theorem of_eq (hrefl : ∀ a, prepares a a) (a : Option α) :
    SlotEffect prepares written brings a a := by
  cases a with
  | none => exact .inl .none
  | some a => exact .inl (.some (hrefl a))

theorem of_map {f : α → α} (h : ∀ a, prepares a (f a)) (a : Option α) :
    SlotEffect prepares written brings a (a.map f) := by
  cases a with
  | none => exact .inl .none
  | some a => exact .inl (.some (h a))

end SlotEffect

namespace Session

variable {session : Session} {map : Text} {step : Step}

theorem map_setMap (session : Session) (target other : Text) (templates : TemplateMap) :
    (session.setMap target templates).map other =
      if other = target then templates else session.map other := by
  rw [Session.map, setMap, Named.lookup_put]
  split
  · rfl
  · rfl

namespace Effect

theorem stay : session.Effect map step session where
  template _ := .of_eq (fun _ => .inl rfl) _
  entry _ _ := .of_eq (fun _ => .inl rfl) _
  provider _ := .of_eq .refl _

theorem setTemplate {id : Text} {template : Template}
    (h : SlotEffect Template.Prepares (step.Writes session.templates map (.template id))
      (session.Brings step) (session.templates.lookup id) (some template)) :
    session.Effect map step (session.setTemplate id template) := by
  refine { (stay : session.Effect map step session) with template := fun other => ?_ }
  rw [Session.setTemplate, Named.lookup_put]
  split
  · rename_i heq
    exact heq ▸ h
  · exact .of_eq (fun _ => .inl rfl) _

/-- The entries of one map change, after another effect. The other slots, and those of the other
maps, are as the first effect left them. -/
theorem setMap {next : Session} (hnext : session.Effect map step next) {target : Text}
    {templates : TemplateMap}
    (h : ∀ name, SlotEffect Template.Prepares
      (step.Writes session.templates map (.entry target name))
      (session.Brings step) ((session.map target).get? name) (templates.get? name)) :
    session.Effect map step (next.setMap target templates) := by
  refine { hnext with entry := fun other name => ?_ }
  rw [map_setMap]
  split
  · rename_i heq
    exact heq ▸ h name
  · exact hnext.entry other name

/-- The templates of one map may be compiled, each of them in its place. A fill does this to the map
that it asks for templates. -/
theorem prepareMap {next : Session} (hnext : session.Effect map step next) (target : Text)
    {f : Text → Template → Template}
    (h : ∀ name (template : Template), template.Prepares (f name template)) :
    session.Effect map step (next.setMap target ((session.map target).mapTemplates f)) := by
  refine hnext.setMap fun name => ?_
  rw [TemplateMap.get?_mapTemplates]
  exact .of_map (h name) _

theorem runFill {id : Text} {template : Template}
    (hget : session.templates.lookup id = some template) (templates : TemplateMap)
    (data : Provider) :
    session.Effect map step (session.runFill id template templates data).1 := by
  have hkept : SlotEffect Template.Prepares (step.Writes session.templates map (.template id))
      (session.Brings step) (session.templates.lookup id) (some template.prepare) := by
    rw [hget]
    exact .inl (.some (.inr rfl))
  refine { (setTemplate hkept : session.Effect map step _) with provider := fun other => ?_ }
  have hsettled := lookup_mapValues
    (fun _ v => Provider.settle
      ((template.fillWithin session.limit templates data).run session.tally).notes v) other
    session.providers
  rw [Session.runFill, hsettled]
  exact .of_map (Provider.prepares_settle _) _

theorem fillWith {id : Text} {template : Template}
    (hget : session.templates.lookup id = some template) (data : Provider) :
    session.Effect map step (session.fillWith map id template data).1 := by
  refine (runFill hget _ data).prepareMap map fun name template => ?_
  split
  · exact .inr rfl
  · exact .inl rfl

end Effect

/-- A step about a template that is not there does nothing, so that only a template that is held by
the id has to be looked at. -/
theorem effect_withTemplate {id : Text} {f : Template → Session × Reply}
    (h : ∀ template, session.templates.lookup id = some template →
      session.Effect map step (f template).1) :
    session.Effect map step (session.withTemplate id f).1 := by
  unfold withTemplate
  cases hget : session.templates.lookup id with
  | none => exact .stay
  | some template => exact h template hget

/-- The entries of a map that a step replaces as a whole. All names of the map have to be written,
and all new templates have to be brought. -/
theorem effect_replaceMap {target : Text} {templates : TemplateMap}
    (hwrites : ∀ name, step.Writes session.templates map (.entry target name))
    (hbrings : ∀ name, ∀ template ∈ templates.get? name, session.Brings step template) :
    session.Effect map step (session.setMap target templates) :=
  Effect.stay.setMap fun name => .inr ⟨hwrites name, hbrings name⟩

theorem effect_insert {name : Text} {template : Template}
    (hwrites : step.Writes session.templates map (.entry map name))
    (hbrings : session.Brings step template) :
    session.Effect map step (session.insert map name template).1 := by
  refine Effect.stay.setMap fun other => ?_
  rw [TemplateMap.get?_insert]
  split
  · rename_i heq
    refine .inr ⟨heq ▸ hwrites, fun found hfound => ?_⟩
    obtain rfl := Option.some.inj hfound
    exact hbrings
  · exact .of_eq (fun _ => .inl rfl) _

theorem mem_of_get?_ofList {entries : List (Text × Template)} {name : Text} {template : Template}
    (h : (TemplateMap.ofList entries).get? name = some template) : (name, template) ∈ entries := by
  rcases TemplateMap.get?_extend .empty entries name with hempty | ⟨found, hmem, hfound⟩
  · rw [TemplateMap.ofList, hempty] at h
    cases h
  · rw [TemplateMap.ofList, hfound] at h
    exact Option.some.inj h ▸ hmem

theorem form_eq_none_of_load {ending : Text} {directory : Except TransferFault Directory}
    {templates : TemplateMap} (h : directory.bind (Directory.load ending) = .ok templates)
    {name : Text} {template : Template} (hget : templates.get? name = some template) :
    template.form = none := by
  cases directory with
  | error fault => cases h
  | ok directory =>
    have hload : (directory.loadEntries ending).map TemplateMap.ofList = .ok templates := h
    cases hentries : directory.loadEntries ending with
    | error fault =>
      rw [hentries] at hload
      cases hload
    | ok entries =>
      rw [hentries] at hload
      cases hload
      exact directory.form_eq_none_of_loadEntries hentries _ (mem_of_get?_ofList hget)

/-- Checking a map compiles some of its templates. It writes none of them, whether or not all of
them turn out to be correct. -/
theorem effect_checked :
    session.Effect map step (session.setMap map (session.map map).checked) := by
  unfold TemplateMap.checked
  split
  · exact Effect.stay.prepareMap map fun _ _ => .inr rfl
  · refine Effect.stay.prepareMap map fun name template => ?_
    split
    · exact .inl rfl
    · exact .inr rfl

theorem effect_step (session : Session) (map : Text) (step : Step) :
    session.Effect map step (session.step map step).1 := by
  cases step with
  | new id source =>
    refine .setTemplate (.inr ⟨.new, fun found hfound => ?_⟩)
    obtain rfl := Option.some.inj hfound
    exact .inl rfl
  | clone id target =>
    refine effect_withTemplate fun template hget => ?_
    refine .setTemplate (.inr ⟨.clone (by simp [hget]), fun found hfound => ?_⟩)
    obtain rfl := Option.some.inj hfound
    exact .inr (.inr (.template hget))
  | source id | describe id | isCompiled id => exact effect_withTemplate fun _ _ => .stay
  | compile id =>
    refine effect_withTemplate fun template hget => .setTemplate (.inl ?_)
    rw [hget]
    exact .some (.inr rfl)
  | fill id data | fillInto id data sink =>
    exact effect_withTemplate fun template hget => .fillWith hget data
  | render id data => exact effect_withTemplate fun template hget => .runFill hget .empty data
  | store id data =>
    refine { (Effect.stay : session.Effect map _ session) with provider := fun other => ?_ }
    rw [Session.step, Named.lookup_put]
    split
    · rename_i heq
      subst heq
      refine .inr ⟨.store, fun found hfound own hown => ?_⟩
      obtain rfl := Option.some.inj hfound
      exact .inr (.inl (List.mem_map_of_mem hown))
    · exact .of_eq .refl _
  | clearMap => exact effect_replaceMap (fun _ => .clearMap) fun _ _ h => by cases h
  | cloneMap target =>
    exact effect_replaceMap (fun _ => .cloneMap) fun name _ h => .inr (.inr (.entry h))
  | replaceMap entries =>
    exact effect_replaceMap (fun _ => .replaceMap) fun name template h =>
      .inr (.inl (List.mem_map_of_mem (mem_of_get?_ofList h)))
  | extendMap entries =>
    refine Effect.stay.setMap fun name => ?_
    rcases (session.map map).get?_extend entries name with hsame | ⟨template, hmem, hfound⟩
    · rw [hsame]
      exact .of_eq (fun _ => .inl rfl) _
    · rw [hfound]
      refine .inr ⟨.extendMap hmem, fun found h => ?_⟩
      obtain rfl := Option.some.inj h
      exact .inr (.inl (List.mem_map_of_mem hmem))
  | insert name source => exact effect_insert .insert (.inl rfl)
  | insertCopy name id =>
    exact effect_withTemplate fun template hget =>
      effect_insert (.insertCopy (by simp [hget])) (.inr (.inr (.template hget)))
  | get name | contains name | size | names | entries => exact .stay
  | check => exact effect_checked
  | load settings directory =>
    rw [Session.step]
    cases hload : directory.bind (Directory.load settings.ending) with
    | error fault => exact .stay
    | ok templates =>
      refine effect_replaceMap (fun _ => .load hload) fun name template h => .inl ?_
      exact form_eq_none_of_load hload h

/-- A map that a step mentions is there from then on, and has the entries that it had, so mentioning
it can be seen in no entry. -/
theorem map_mention (session : Session) (map other : Text) :
    (session.setMap map (session.map map)).map other = session.map other := by
  rw [map_setMap]
  split
  · rename_i heq
    rw [heq]
  · rfl

theorem holds_of_mention {template : Template}
    (h : (session.setMap map (session.map map)).Holds template) : session.Holds template := by
  cases h with
  | template hget => exact .template hget
  | entry hget =>
    rw [map_mention] at hget
    exact .entry hget
  | own hget hown => exact .own hget hown

theorem brings_of_mention {template : Template}
    (h : (session.setMap map (session.map map)).Brings step template) :
    session.Brings step template :=
  h.imp_right (Or.imp_right holds_of_mention)

theorem effect_run (session : Session) (map : Text) (step : Step) :
    session.Effect map step (session.run map step).1 := by
  have hstep := effect_step (session.setMap map (session.map map)) map step
  constructor
  · exact fun id => (hstep.template id).imp_right fun ⟨hwrites, h⟩ =>
      ⟨hwrites, fun template htemplate => brings_of_mention (h template htemplate)⟩
  · intro target name
    have hentry := hstep.entry target name
    rw [map_mention] at hentry
    exact hentry.imp_right fun ⟨hwrites, h⟩ =>
      ⟨hwrites, fun template htemplate => brings_of_mention (h template htemplate)⟩
  · exact fun id => (hstep.provider id).imp_right fun ⟨hwrites, h⟩ =>
      ⟨hwrites, fun v hv own hown => brings_of_mention (h v hv own hown)⟩

end Session

/-! ### Faithful sessions -/

/-- All templates that a session holds keep only forms that their sources compile to. What is read
from a form could then be compiled anew. -/
def Session.Faithful (session : Session) : Prop :=
  ∀ template, session.Holds template → template.Faithful

/-- The templates that come with a step are new, or copies of what the session holds. No step can
bring a form that does not belong to its source. -/
def Step.DrawnFrom (step : Step) (session : Session) : Prop :=
  ∀ template ∈ step.templates, template.form = none ∨ session.Holds template

theorem Template.faithful_of_form_eq_none {template : Template} (h : template.form = none) :
    template.Faithful := by
  intro compiled hcompiled
  rw [h] at hcompiled
  cases hcompiled

theorem Step.DrawnFrom.faithful {session : Session} {step : Step} (h : step.DrawnFrom session)
    (hsession : session.Faithful) : ∀ template ∈ step.templates, template.Faithful :=
  fun template hmem => (h template hmem).elim Template.faithful_of_form_eq_none (hsession template)

theorem SlotEffect.cases_some {α : Type} {prepares : α → α → Prop} {written : Prop}
    {brings : α → Prop} {before : Option α} {a : α}
    (h : SlotEffect prepares written brings before (some a)) :
    (∃ b, before = some b ∧ prepares b a) ∨ brings a := by
  rcases h with hprepares | ⟨-, hbrings⟩
  · cases hprepares with
    | some h => exact .inl ⟨_, rfl, h⟩
  · exact .inr (hbrings a rfl)

namespace Session

variable {session next : Session} {map : Text} {step : Step}

theorem Brings.faithful {template : Template} (h : session.Brings step template)
    (hsession : session.Faithful) (hstep : step.DrawnFrom session) : template.Faithful := by
  rcases h with hform | hmem | hholds
  · exact Template.faithful_of_form_eq_none hform
  · exact hstep.faithful hsession template hmem
  · exact hsession template hholds

theorem Effect.faithful (h : session.Effect map step next) (hsession : session.Faithful)
    (hstep : step.DrawnFrom session) : next.Faithful := by
  intro template hholds
  cases hholds with
  | @template id _ hget =>
    have hslot := h.template id
    rw [hget] at hslot
    rcases hslot.cases_some with ⟨before, hbefore, hprepares⟩ | hbrings
    · exact hprepares.faithful (hsession before (.template hbefore))
    · exact hbrings.faithful hsession hstep
  | @entry target name _ hget =>
    have hslot := h.entry target name
    rw [hget] at hslot
    rcases hslot.cases_some with ⟨before, hbefore, hprepares⟩ | hbrings
    · exact hprepares.faithful (hsession before (.entry hbefore))
    · exact hbrings.faithful hsession hstep
  | @own id v own hget hown =>
    have hslot := h.provider id
    rw [hget] at hslot
    rcases hslot.cases_some with ⟨before, hbefore, hprepares⟩ | hbrings
    · have hfaithful : before.Faithful := fun own hown => hsession _ (.own hbefore hown)
      exact hprepares.faithful hfaithful own hown
    · exact (hbrings own hown).faithful hsession hstep

end Session

/-! ### What a step keeps -/

/-- The template has the same source, and the form that it had. It may have been given a form, but
it does not lose one. -/
structure Template.Kept (before after : Template) : Prop where
  source : after.source = before.source
  form : ∀ compiled, before.form = some compiled → after.form = some compiled

/-- The provider is the same but for the forms of its own templates, and has those that it had. The
own templates are kept one by one, in their order. -/
structure Provider.Kept (before after : Provider) : Prop where
  forget : after.forget = before.forget
  forms : List.Forall₂ (fun own own' : OwnTemplate => own.template.Kept own'.template)
    before.owns after.owns

/-- The slots that are not written hold what they held. Templates and providers in them may have
been compiled, but lose nothing. -/
structure Session.Keeps (session : Session) (written : Slot → Prop) (next : Session) : Prop where
  template : ∀ id, ¬ written (.template id) →
    Option.Rel Template.Kept (session.templates.lookup id) (next.templates.lookup id)
  entry : ∀ map name, ¬ written (.entry map name) →
    Option.Rel Template.Kept ((session.map map).get? name) ((next.map map).get? name)
  provider : ∀ id, ¬ written (.provider id) →
    Option.Rel Provider.Kept (session.providers.lookup id) (next.providers.lookup id)

theorem Template.Prepares.kept {before after : Template} (h : before.Prepares after) :
    before.Kept after :=
  ⟨h.source_eq, fun _ => h.form_eq⟩

theorem Provider.Prepares.kept {before after : Provider} (h : before.Prepares after) :
    before.Kept after := by
  obtain ⟨f, hf, rfl⟩ := h
  refine ⟨Provider.forget_mapOwns (fun own => ?_) before, ?_⟩
  · rcases hf own with h | h <;> rw [h]
    rfl
  · rw [Provider.owns_mapOwns]
    refine List.forall₂_map_right_iff.2 (List.forall₂_same.2 fun own _ => ?_)
    refine Template.Prepares.kept ?_
    rcases hf own with h | h <;> rw [h]
    · exact .inl rfl
    · exact .inr rfl

theorem SlotEffect.rel_of_not {α : Type} {prepares kept : α → α → Prop} {written : Prop}
    {brings : α → Prop} {before after : Option α}
    (h : SlotEffect prepares written brings before after) (hwritten : ¬ written)
    (hkept : ∀ a b, prepares a b → kept a b) : Option.Rel kept before after := by
  rcases h with hprepares | ⟨hw, -⟩
  · cases hprepares with
    | some h => exact .some (hkept _ _ h)
    | none => exact .none
  · exact absurd hw hwritten

/-- Whatever a step does not write stays in its place, with its source and with its form. So a form
that is kept once is there until its slot is written. -/
theorem Session.keeps_run (session : Session) (map : Text) (step : Step) :
    session.Keeps (step.Writes session.templates map) (session.run map step).1 where
  template id hid := ((effect_run session map step).template id).rel_of_not hid
    fun _ _ => Template.Prepares.kept
  entry target name hname := ((effect_run session map step).entry target name).rel_of_not hname
    fun _ _ => Template.Prepares.kept
  provider id hid := ((effect_run session map step).provider id).rel_of_not hid
    fun _ _ => Provider.Prepares.kept

end Stencil
