import Stencil.Proofs.ErrorSites
import Stencil.Proofs.FirstFault
import Stencil.Proofs.SequenceJoining

/-!
# References without a template

A check reads the references of a template off its nodes, and a fill comes to them in the bodies of
the template. Each node with a reference belongs to a link of a substitution that asks for the same
template, and whose raw text has the name in it. Where the template is missing, a fill shows that
raw text, but a check shows the name alone.
-/
namespace Stencil

/-! ### The links of a template -/

mutual

/-- All links of the substitutions in a body, each with the place that it is filled at, in the order
of the source and of the nodes. -/
def Body.links : Body → List (Placement × Action)
  | .tail _ => []
  | .piece _ place action rest => action.links place ++ rest.links

def Action.links (place : Placement) : Action → List (Placement × Action)
  | .comment => [(place, .comment)]
  | .insert rewind name => [(place, .insert rewind name)]
  | .value rewind name target => (place, .value rewind name target) :: target.links place

/-- The links after one with this target, and those inside the target, in the order of the arena. -/
def Target.links (place : Placement) : Target → List (Placement × Action)
  | .own => []
  | .named _ => []
  | .inline body => body.links
  | .link name target => (place.inner, .value 0 name target) :: target.links place.inner

end

/-- The node stands for the link: it has the same place in the source, asks for the same template,
and is a comment if the link is one. -/
structure Node.StandsFor (node : Node) (link : Placement × Action) : Prop where
  span : link.1.span = node.span
  asked : link.2.asked? = node.reference?
  comment : link.2 = .comment ↔ node.kind = .comment

mutual

theorem Body.exists_link (counts : Counts) :
    ∀ body : Body, ∀ node ∈ (body.lay counts).2.nodes, ∃ link ∈ body.links, node.StandsFor link
  | .tail _, node, h => by cases h
  | .piece _ place action rest, node, h => by
    rcases List.mem_append.1 h with h | h
    · obtain ⟨link, hlink, hstands⟩ := action.exists_link place counts node h
      exact ⟨link, List.mem_append_left _ hlink, hstands⟩
    · obtain ⟨link, hlink, hstands⟩ := rest.exists_link _ node h
      exact ⟨link, List.mem_append_right _ hlink, hstands⟩

theorem Action.exists_link (place : Placement) (counts : Counts) :
    ∀ action : Action, ∀ node ∈ (action.lay place counts).nodes,
      ∃ link ∈ action.links place, node.StandsFor link
  | .comment, node, h => by
    obtain rfl := List.mem_singleton.1 h
    exact ⟨_, List.mem_cons_self, rfl, rfl, by simp [Chain.head]⟩
  | .insert _ _, node, h => by
    obtain rfl := List.mem_singleton.1 h
    exact ⟨_, List.mem_cons_self, rfl, rfl, by simp [Chain.head]⟩
  | .value rewind name target, node, h =>
    target.exists_link place _ _ _ rewind name rfl rfl rfl node h

theorem Target.exists_link (place : Placement) (chain : Chain) (first : Node) (counts : Counts)
    (rewind : Nat) (name : Text) (hkind : first.kind = .value) (htarget : first.target = .own)
    (hspan : place.span = first.span) :
    ∀ target : Target, ∀ node ∈ (target.lay chain first counts).nodes,
      ∃ link ∈ (Action.value rewind name target).links place, node.StandsFor link
  | .own, node, h => by
    obtain rfl := List.mem_singleton.1 h
    exact ⟨_, List.mem_cons_self, hspan, by simp [Action.asked?, Node.reference?, hkind, htarget],
      by simp [hkind]⟩
  | .named other, node, h => by
    obtain rfl := List.mem_singleton.1 h
    exact ⟨_, List.mem_cons_self, hspan, by simp [Action.asked?, Node.reference?, hkind],
      by simp [hkind]⟩
  | .inline body, node, h => by
    rcases List.mem_cons.1 h with rfl | h
    · exact ⟨_, List.mem_cons_self, hspan, by simp [Action.asked?, Node.reference?, hkind],
      by simp [hkind]⟩
    · obtain ⟨link, hlink, hstands⟩ := body.exists_link _ node h
      exact ⟨link, List.mem_cons_of_mem _ hlink, hstands⟩
  | .link next target, node, h => by
    rcases List.mem_cons.1 h with rfl | h
    · exact ⟨_, List.mem_cons_self, hspan, by simp [Action.asked?, Node.reference?, hkind],
      by simp [hkind]⟩
    · -- the next link has a node of its own, with the span of the whole substitution
      let second : Node :=
        { first with name := next, rewind := 0, leading := [], trailing := [], target := .own }
      have hsecond : second.kind = .value := hkind
      obtain ⟨link, hlink, hstands⟩ :=
        target.exists_link place.inner chain second _ 0 next hsecond rfl hspan node h
      exact ⟨link, List.mem_cons_of_mem _ hlink, hstands⟩

end

/-- Each node of an arena stands for a link of its template, so that what is said of nodes can be
said of links. -/
theorem Compiled.exists_link (compiled : Compiled) {node : Node}
    (h : node ∈ compiled.arena.nodes) : ∃ link ∈ compiled.root.links, node.StandsFor link :=
  compiled.root.exists_link ⟨0, 1, 0⟩ node h

/-! ### Where a name is read -/

theorem Text.trim_isInfix (t : Text) : t.trim <:+: t :=
  (trimEnd_isPrefix _).isInfix.trans (List.dropWhile_suffix _).isInfix

namespace Clauses

theorem isInfix_of_isSuffix {raw rest : Text} (h : rest <:+ (splitAfterMark raw.trim).1) :
    rest <:+: raw :=
  h.isInfix.trans ((splitAfterMark_isPrefix _).isInfix.trans raw.trim_isInfix)

theorem data_isInfix {raw name : Text} (h : (read raw).data = some (.named name)) :
    name <:+: raw := by
  obtain ⟨rest, hsuffix, hdata⟩ := data_read raw
  rw [hdata] at h
  unfold readData at h
  split at h
  · cases h
  · cases h
    have hname := (List.suffix_cons _ _).isInfix.trans (isInfix_of_isSuffix hsuffix)
    exact (Text.trim_isInfix _).trans hname
  · cases h

theorem path_isInfix (raw : Text) : (read raw).path <:+: raw := by
  have hsuffix := (takeDots_isSuffix _).trans
    ((takeInsert_isSuffix _).trans (takeBeforeMark_isSuffix (splitAfterMark raw.trim).1))
  exact (Text.trim_isInfix _).trans
    ((List.takeWhile_prefix _).isInfix.trans (isInfix_of_isSuffix hsuffix))

end Clauses

/-- A name that a substitution asks for is in its raw body, letter by letter and in one piece. -/
theorem Directive.asked_isInfix {raw : Text} {clauses : Clauses}
    (h : Directive.read raw = .substitution clauses) :
    clauses.path <:+: raw ∧ ∀ name, clauses.data = some (.named name) → name <:+: raw := by
  unfold Directive.read at h
  split at h
  · cases h
  · cases h
    exact ⟨Clauses.path_isInfix raw, fun _ => Clauses.data_isInfix⟩

/-- The link is read from a substitution that was met, at its place, and a template that it asks for
is named in that raw body. -/
def ReadFrom (visits : List Visit) (link : Placement × Action) : Prop :=
  ∃ start raw, ⟨start + 2, raw⟩ ∈ visits ∧ link.1.span = .ofBody raw start ∧
    ∀ name, link.2.asked? = some name → name <:+: raw

theorem ReadFrom.mono {visits more : List Visit} {link : Placement × Action}
    (h : ReadFrom visits link) (hsub : visits ⊆ more) : ReadFrom more link := by
  obtain ⟨start, raw, hmem, hlink⟩ := h
  exact ⟨start, raw, hsub hmem, hlink⟩

/-- The links of a dotted name have one place, and only the last asks for a template. The others are
filled into the next ones. -/
theorem Target.mem_links_ofLinks {names : List Text} {target : Target} {link : Placement × Action}
    {place : Placement} {rewind : Nat} {first : Text}
    (h : link ∈ (Action.value rewind first (.ofLinks names target)).links place) :
    (link.1.span = place.span ∧ ∀ name, link.2.asked? = some name → target = .named name) ∨
      ∃ place', link ∈ target.links place' := by
  induction names generalizing place rewind first with
  | nil =>
    rcases List.mem_cons.1 h with rfl | h
    · refine .inl ⟨rfl, fun name hname => ?_⟩
      cases target <;> simp_all [Action.asked?, ofLinks]
    · exact .inr ⟨place, h⟩
  | cons next names ih =>
    rcases List.mem_cons.1 h with rfl | h
    · exact .inl ⟨rfl, fun name hname => by cases hname⟩
    · have hnext : link ∈ (Action.value 0 next (.ofLinks names target)).links place.inner := h
      have hlast := ih hnext
      exact hlast

namespace Draft

theorem visits_value {data : Draft Target} {target : Target} (h : data.result = .ok target)
    (v : Visit) (draft : Draft Body) (f : Target → Body → Body) :
    (visit v (data.andThen fun target => draft.map (f target))).visits =
      v :: (data.visits ++ draft.visits) := by
  rw [visit, andThen, h]
  rfl

/-- All links of a result are read from the visits, which is the statement for a compilation. -/
def LinksRead (draft : Draft Body) : Prop :=
  ∀ body, draft.result = .ok body → ∀ link ∈ body.links, ReadFrom draft.visits link

/-- The same for a data section, which is where a named target is read. The substitution around it
has the name. -/
def TargetRead (data : Option DataClause) (draft : Draft Target) : Prop :=
  ∀ target, draft.result = .ok target →
    (∀ name, target = .named name → data = some (.named name)) ∧
      ∀ place, ∀ link ∈ target.links place, ReadFrom draft.visits link

theorem linksRead_rules : CompileRules (fun _ _ draft => draft.LinksRead)
    (fun _ _ _ draft => draft.LinksRead) (fun _ data draft => draft.TargetRead data) where
  source h := h
  done _ literal := by
    intro body hbody
    cases hbody
    simp [Body.links]
  broken _ _ _ := by
    intro body hbody
    cases hbody
  fault _ _ := by
    intro body hbody
    cases hbody
  comment {_ _ raw _ start _ _} _ h := by
    intro body hbody link hlink
    obtain ⟨after, hafter, rfl⟩ := result_map_eq_ok.1 hbody
    rcases List.mem_cons.1 hlink with rfl | hlink
    · exact ⟨start, raw, List.mem_cons_self, rfl, fun name hname => by cases hname⟩
    · exact (h after hafter link hlink).mono (List.subset_cons_self _ _)
  insert {_ _ raw _ start _ _ _} hread _ _ h := by
    intro body hbody link hlink
    obtain ⟨after, hafter, rfl⟩ := result_map_eq_ok.1 hbody
    rcases List.mem_cons.1 hlink with rfl | hlink
    · refine ⟨start, raw, List.mem_cons_self, rfl, fun name hname => ?_⟩
      cases hname
      exact (Directive.asked_isInfix hread).1
    · exact (h after hafter link hlink).mono (List.subset_cons_self _ _)
  value {_ _ raw _ start _ _ data draft} hread _ _ hdata h := by
    intro body hbody link hlink
    obtain ⟨target, htarget, hbody⟩ := result_andThen_eq_ok.1 hbody
    obtain ⟨after, hafter, rfl⟩ := result_map_eq_ok.1 hbody
    obtain ⟨hnamed, hinside⟩ := hdata target htarget
    rw [visits_value htarget]
    rcases List.mem_append.1 hlink with hlink | hlink
    · rcases Target.mem_links_ofLinks hlink with ⟨hspan, hasked⟩ | ⟨place, hlink⟩
      · refine ⟨start, raw, List.mem_cons_self, hspan, fun name hname => ?_⟩
        exact (Directive.asked_isInfix hread).2 name (hnamed name (hasked name hname))
      · exact (hinside place link hlink).mono fun _ hv =>
          List.mem_cons_of_mem _ (List.mem_append_left _ hv)
    · exact (h after hafter link hlink).mono fun _ hv =>
        List.mem_cons_of_mem _ (List.mem_append_right _ hv)
  own _ _ _ := by
    intro target htarget
    cases htarget
    exact ⟨fun _ hname => (by cases hname), fun _ _ hlink => (by cases hlink)⟩
  named _ _ _ := by
    intro target htarget
    cases htarget
    refine ⟨fun name hname => ?_, fun _ _ hlink => (by cases hlink)⟩
    cases hname
    rfl
  inline h := by
    intro target htarget
    obtain ⟨body, hbody, rfl⟩ := result_map_eq_ok.1 htarget
    exact ⟨fun _ hname => (by cases hname), fun _ => h body hbody⟩

end Draft

/-- Each link of a template is in the source between braces, with the name of the template that it
asks for. -/
theorem compile_links {source : Text} {compiled : Compiled} (h : compile source = .ok compiled) :
    ∀ link ∈ compiled.root.links, ∃ raw, link.1.span.slice source = enclose raw ∧
      ∀ name, link.2.asked? = some name → name <:+: raw := by
  intro link hlink
  obtain ⟨-, hroot⟩ := compile_eq_ok.1 h
  obtain ⟨start, raw, hmem, hspan, hasked⟩ :=
    Draft.linksRead_rules.compileSource 0 source compiled.root hroot link hlink
  obtain ⟨start', hstart, hbody⟩ := (mapped_compileSource source).visits _ hmem
  obtain rfl : start = start' := Nat.add_right_cancel hstart
  exact ⟨raw, hspan ▸ hbody.slice, hasked⟩

/-- A name inside a raw body is not the text of the substitution, which is longer by its braces. -/
theorem ne_enclose_of_isInfix {name raw : Text} (h : name <:+: raw) : name ≠ enclose raw := by
  rintro rfl
  have hlength := h.length_le
  simp only [enclose, List.length_cons, List.length_append] at hlength
  omega

/-! ### What a fill and a check show -/

/-- If the link is one of a value, its name is found in these scopes. An insertion needs no such
thing. -/
def Action.FoundIn (scopes : Scopes) (action : Action) : Prop :=
  ∀ dots name target, action = .value dots name target → ∃ i v, scopes.Resolves dots name i v

section

variable {templates : TemplateMap} {enter : Enter} {source name : Text} {place : Placement}
  {scopes : Scopes} {action : Action} {t : Tally}

/-- A fill that comes to a link without its template fails there, and its error quotes the whole
substitution. -/
theorem result_fillAction_missing (hasked : action.asked? = some name)
    (hget : templates.get? name = none) (hfound : action.FoundIn scopes) :
    ((fillAction templates enter source place scopes action).run t).result =
      .error (.failed (.substitution (Spot.error ⟨source, place, name⟩ .missingTemplate))) := by
  match action, hasked with
  | .insert rewind other, hasked =>
    obtain rfl : other = name := Option.some.inj hasked
    simp only [fillAction, namedPart, hget]
    rfl
  | .value dots other (.named target), hasked =>
    obtain rfl : target = name := Option.some.inj hasked
    obtain ⟨i, v, hv⟩ := hfound _ _ _ rfl
    let spot : Spot := ⟨source, place, other⟩
    have hlink : (spot.fillLink templates enter dots (.named target) scopes).run t = _ :=
      run_link_of_error hv (run_targetPart_missing hget)
    exact congrArg Report.result hlink

end

/-- What a check says of a missing template: its name stands where the text of the substitution is
expected. -/
theorem TemplateMap.exists_missing {templates : TemplateMap} (h : templates.Faithful)
    {error : SubstitutionError} (hcheck : templates.check = .error (.substitution error)) :
    ∃ name template compiled, templates.get? name = some template ∧
      compile template.source = .ok compiled ∧ error.name ∈ compiled.arena.references ∧
        templates.get? error.name = none ∧
          error = ⟨.missingTemplate, error.name, error.name, template.source⟩ := by
  obtain ⟨name, hfirst⟩ := exists_firstProblem? hcheck
  obtain ⟨before, template, after, hat⟩ := exists_firstAt hfirst
  have hproblem := hat.problem
  unfold problem? at hproblem
  rw [(h.of_get? hat.get?).compile_eq] at hproblem
  cases hcompile : compile template.source with
  | error e =>
    rw [hcompile] at hproblem
    cases hproblem
  | ok compiled =>
    rw [hcompile] at hproblem
    obtain ⟨missing, hmissing, heq⟩ := Option.map_eq_some_iff.1 hproblem
    obtain rfl := (FillError.substitution.inj heq).symm
    have habsent : templates.contains missing = false := by
      simpa using List.find?_some hmissing
    refine ⟨name, template, compiled, hat.get?, hcompile, ?_, ?_, ?_⟩
    · rw [compiled.lists_arena.references]
      exact List.mem_of_find?_eq_some hmissing
    · simpa [contains] using habsent
    · rw [(compile_eq_ok.1 hcompile).1]

/-- How a missing template is shown at a node that refers to it. The check's text is not the raw
text of the node's head, and a fill that comes to the node shows that one. -/
structure SubstitutionError.NamesOnly (error : SubstitutionError) (templates : TemplateMap)
    (compiled : Compiled) (node : Node) (raw : Text) : Prop where
  head : ∃ head, node.origin ∈ compiled.arena.heads ∧
    compiled.arena.nodes[node.origin]? = some head ∧ head.kind ≠ .comment
  raw_eq : compiled.arena.raw compiled.source node.origin = enclose raw
  isInfix : error.substitution <:+: raw
  ne : error.substitution ≠ enclose raw
  /-- What a fill shows at the link of the node, which differs from what the check shows in the
  substitution only. -/
  filled : ∃ link ∈ compiled.root.links, node.StandsFor link ∧
    ∀ enter scopes t, link.2.FoundIn scopes →
      ((fillAction templates enter compiled.source link.1 scopes link.2).run t).result =
        .error (.failed (.substitution { error with substitution := enclose raw }))

/-- A check that misses a template shows its name where the raw text of a substitution belongs. Each
node that refers to it has a head with the raw text, which is longer and which a fill would show. -/
theorem TemplateMap.check_substitution_eq_name {templates : TemplateMap} (h : templates.Faithful)
    {error : SubstitutionError} (hcheck : templates.check = .error (.substitution error)) :
    ∃ name template compiled, templates.get? name = some template ∧
      compile template.source = .ok compiled ∧
      error = ⟨.missingTemplate, error.name, error.name, template.source⟩ ∧
      (∃ node ∈ compiled.arena.nodes, node.reference? = some error.name) ∧
      ∀ node ∈ compiled.arena.nodes, node.reference? = some error.name →
        ∃ raw, error.NamesOnly templates compiled node raw := by
  obtain ⟨name, template, compiled, hget, hcompile, hmem, habsent, herror⟩ :=
    exists_missing h hcheck
  have hsource : compiled.source = template.source := (compile_eq_ok.1 hcompile).1
  refine ⟨name, template, compiled, hget, hcompile, herror, List.mem_filterMap.1 hmem, ?_⟩
  intro node hnode hreference
  obtain ⟨link, hlink, hstands⟩ := compiled.exists_link hnode
  obtain ⟨hspan, hasked, hcomment⟩ := hstands
  obtain ⟨raw, hraw, hinside⟩ := compile_links hcompile link hlink
  -- the check shows the name, which is only a part of the raw text
  have hisInfix : error.name <:+: raw := hinside _ (hasked.trans hreference)
  have hkind : node.kind ≠ .comment := by
    intro hkind
    rw [hcomment.2 hkind, hreference] at hasked
    cases hasked
  obtain ⟨head, hheads, hhead, hvalue, hshown⟩ :=
    (compile_wellFormed hcompile).exists_head template.source hnode hkind
  rw [← hspan, hraw] at hshown
  refine ⟨raw, ⟨head, hheads, hhead, hvalue⟩, hsource ▸ hshown, ?_, ?_, link, hlink,
    ⟨hspan, hasked, hcomment⟩, fun enter scopes t hfound => ?_⟩
  · rw [herror]
    exact hisInfix
  · rw [herror]
    exact ne_enclose_of_isInfix hisInfix
  · rw [result_fillAction_missing (hasked.trans hreference) habsent hfound, herror, Spot.error,
      hsource, hraw]

/-- A dotted name inside a template of its own, with a template that is not there. It is not the
outermost substitution. -/
def innerSource : Text :=
  "\x7b\x7bxs|!a\x7b\x7by.z|b\x7d\x7d\x7d\x7d".toList

def innerTemplates : TemplateMap :=
  .ofList [("p".toList, .new innerSource)]

theorem check_substitution_eq_name_inner :
    innerTemplates.Faithful ∧
      innerTemplates.check =
        .error (.substitution ⟨.missingTemplate, ['b'], ['b'], innerSource⟩) ∧
      ∃ name template compiled, innerTemplates.get? name = some template ∧
        compile template.source = .ok compiled ∧
        (⟨.missingTemplate, ['b'], ['b'], innerSource⟩ : SubstitutionError) =
          ⟨.missingTemplate, ['b'], ['b'], template.source⟩ ∧
        (∃ node ∈ compiled.arena.nodes, node.reference? = some ['b']) ∧
        ∀ node ∈ compiled.arena.nodes, node.reference? = some ['b'] → ∃ raw,
          SubstitutionError.NamesOnly ⟨.missingTemplate, ['b'], ['b'], innerSource⟩ innerTemplates
            compiled node raw := by
  have hcheck : innerTemplates.check =
      .error (.substitution ⟨.missingTemplate, ['b'], ['b'], innerSource⟩) := by decide +kernel
  have hfaithful : innerTemplates.Faithful :=
    TemplateMap.faithful_empty.extend fun entry hentry => by
      rw [List.mem_singleton.1 hentry]
      exact Template.faithful_new _
  exact ⟨hfaithful, hcheck, TemplateMap.check_substitution_eq_name hfaithful hcheck⟩

/-- A name with a template that is not there, both of a single letter. -/
def shortSource : Text :=
  "\x7b\x7bx|c\x7d\x7d".toList

/-- The check shows one character, and the only head of the template has another raw text, which is
what a fill shows. -/
theorem check_substitution_eq_name_short :
    (TemplateMap.ofList [(['a'], .new shortSource)]).check =
      .error (.substitution ⟨.missingTemplate, ['c'], ['c'], shortSource⟩) ∧
    (∃ compiled, compile shortSource = .ok compiled ∧
      ∀ head ∈ compiled.arena.heads, compiled.arena.raw shortSource head ≠ ['c']) ∧
    (((Template.new shortSource).fillWithin 9 (.ofList [(['a'], .new shortSource)])
        (.map none [(['x'], .scalar ['1'])])).run .empty).result =
      .error (.failed (.substitution ⟨.missingTemplate, ['c'], shortSource, shortSource⟩)) := by
  have hsome : (compile shortSource).toOption.isSome = true := by decide +kernel
  have hraws : (compile shortSource).toOption.map
      (fun compiled => compiled.arena.heads.map (compiled.arena.raw shortSource)) =
    some [shortSource] := by decide +kernel
  obtain ⟨compiled, hcompile⟩ := exists_compile hsome
  rw [hcompile] at hraws
  have hraws : compiled.arena.heads.map (compiled.arena.raw shortSource) = [shortSource] :=
    Option.some.inj hraws
  refine ⟨by decide +kernel, ⟨compiled, hcompile, fun head hhead heq => ?_⟩, by decide +kernel⟩
  have hmem := List.mem_map.2 ⟨head, hhead, heq⟩
  rw [hraws] at hmem
  exact absurd hmem (by decide)

end Stencil
