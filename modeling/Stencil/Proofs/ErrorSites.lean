import Stencil.Proofs.Introspection
import Stencil.Proofs.Levels
import Stencil.Proofs.Nesting
import Stencil.Proofs.WellFormedArena

/-!
# Where errors point

Each body that a fill enters comes from a template that was given to it: the template itself, one of
the map, or one that the data carries. There each substitution is shown by nodes of the arena of
that template. So an error of a substitution points at a first link with the reported raw text, and
at the link of the same substitution that the fill was at.
-/
namespace Stencil

/-! ### Substitutions and their nodes -/

/-- What a node tells of a link: its kind, the span of the substitution, the dots and the name. -/
structure Node.Describes (node : Node) (kind : NodeKind) (span : Span) (rewind : Nat)
    (name : Text) : Prop where
  kind : node.kind = kind
  span : node.span = span
  rewind : node.rewind = rewind
  name : node.name = name

/-- The node is the first link of a substitution. Each later link is a substitution in a body of
its own. -/
def Action.IsLink (span : Span) (link : Node) : Action → Prop
  | .comment => False
  | .insert rewind name => link.Describes .insert span rewind name
  | .value rewind name _ => link.Describes .value span rewind name

theorem Action.IsLink.kind_ne {span : Span} {link : Node} {action : Action}
    (h : action.IsLink span link) : link.kind ≠ .comment := by
  cases action with
  | comment => exact h.elim
  | insert rewind name | value rewind name target => simp [h.kind]

theorem Action.IsLink.span_eq {span : Span} {link : Node} {action : Action}
    (h : action.IsLink span link) : link.span = span := by
  cases action with
  | comment => exact h.elim
  | insert rewind name | value rewind name target => exact h.span

mutual

/-- Each substitution of the body is described by nodes of the arena, and so is all that is inside
of it. -/
def Body.ShownIn (arena : Arena) : Body → Prop
  | .tail _ => True
  | .piece _ place action rest => action.ShownIn arena place.span ∧ rest.ShownIn arena

def Action.ShownIn (arena : Arena) (span : Span) : Action → Prop
  | .comment => True
  | .insert rewind name => ∃ node ∈ arena.nodes, node.Describes .insert span rewind name
  | .value rewind name target => target.ShownIn arena span rewind name

/-- A link with this target, and all that is in the target, are described by nodes of the arena. -/
def Target.ShownIn (arena : Arena) (span : Span) (rewind : Nat) (name : Text) : Target → Prop
  | .own => ∃ node ∈ arena.nodes, node.Describes .value span rewind name ∧ node.target = .own
  | .named other =>
    ∃ node ∈ arena.nodes, node.Describes .value span rewind name ∧ node.target = .named other
  | .inline body =>
    (∃ node ∈ arena.nodes, node.Describes .value span rewind name) ∧ body.ShownIn arena
  | .link next target =>
    (∃ node ∈ arena.nodes, node.Describes .value span rewind name) ∧
      target.ShownIn arena span 0 next

end

mutual

theorem Body.shownIn_lay (arena : Arena) (counts : Counts) :
    ∀ body : Body, (body.lay counts).2.nodes ⊆ arena.nodes → body.ShownIn arena
  | .tail _, _ => trivial
  | .piece _ place action rest, h => by
    obtain ⟨hfirst, hrest⟩ := List.append_subset.1 h
    exact ⟨action.shownIn_lay arena place counts hfirst, rest.shownIn_lay arena _ hrest⟩

theorem Action.shownIn_lay (arena : Arena) (place : Placement) (counts : Counts) :
    ∀ action : Action, (action.lay place counts).nodes ⊆ arena.nodes →
      action.ShownIn arena place.span
  | .comment, _ => trivial
  | .insert _ _, h => ⟨_, h List.mem_cons_self, rfl, rfl, rfl, rfl⟩
  | .value _ _ target, h => target.shownIn_lay arena _ _ _ rfl rfl h

theorem Target.shownIn_lay (arena : Arena) (chain : Chain) (node : Node) (counts : Counts)
    (hkind : node.kind = .value) (htarget : node.target = .own) :
    ∀ target : Target, (target.lay chain node counts).nodes ⊆ arena.nodes →
      target.ShownIn arena node.span node.rewind node.name
  | .own, h => ⟨node, h List.mem_cons_self, ⟨hkind, rfl, rfl, rfl⟩, htarget⟩
  | .named _, h => ⟨_, h List.mem_cons_self, ⟨hkind, rfl, rfl, rfl⟩, rfl⟩
  | .inline body, h => by
    obtain ⟨hnode, hinner⟩ := List.cons_subset.1 h
    exact ⟨⟨_, hnode, hkind, rfl, rfl, rfl⟩, body.shownIn_lay arena _ hinner⟩
  | .link _ target, h => by
    obtain ⟨hnode, hinner⟩ := List.cons_subset.1 h
    have hnext := target.shownIn_lay arena chain _ _ (by exact hkind) rfl hinner
    exact ⟨⟨_, hnode, hkind, rfl, rfl, rfl⟩, hnext⟩

end

/-- The arena of a template shows all its substitutions, so that an error about one of them is about
a node. -/
theorem Compiled.shownIn_arena (compiled : Compiled) : compiled.root.ShownIn compiled.arena :=
  compiled.root.shownIn_lay compiled.arena ⟨0, 1, 0⟩ fun _ hnode => hnode

theorem Body.ShownIn.piece {arena : Arena} {body : Body} (h : body.ShownIn arena)
    {piece : Body.Piece} (hpiece : piece ∈ body.pieces) :
    piece.action.ShownIn arena piece.place.span := by
  match body with
  | .tail _ => cases hpiece
  | .piece _ _ _ rest =>
    rcases List.mem_cons.1 hpiece with rfl | hrest
    · exact h.1
    · exact Body.ShownIn.piece h.2 hrest

/-- The node of a value, whatever its target: some node of the arena describes the link. -/
theorem Target.ShownIn.node {arena : Arena} {span : Span} {rewind : Nat} {name : Text}
    {target : Target} (h : target.ShownIn arena span rewind name) :
    ∃ node ∈ arena.nodes, node.Describes .value span rewind name := by
  cases target with
  | own | named other =>
    obtain ⟨node, hnode, hdescribes, -⟩ := h
    exact ⟨node, hnode, hdescribes⟩
  | inline body | link next target => exact h.1

/-! ### Heads -/

/-- The raw text that an error reports is that of the first link of a substitution, and all its
links have the same. -/
theorem Arena.WellFormed.exists_head {arena : Arena} (h : arena.WellFormed) (source : Text)
    {link : Node} (hlink : link ∈ arena.nodes) (hkind : link.kind ≠ .comment) :
    ∃ head, link.origin ∈ arena.heads ∧ arena.nodes[link.origin]? = some head ∧
      head.kind ≠ .comment ∧ arena.raw source link.origin = link.span.slice source := by
  obtain ⟨i, hi⟩ := List.getElem?_of_mem hlink
  obtain ⟨last, hchain, hfirst, hlast⟩ := h.chain i link hi
  obtain ⟨node, head, hnode, hhead, -, -, hspan⟩ := hchain.link i hfirst hlast
  obtain rfl : link = node := Option.some.inj (hi.symm.trans hnode)
  obtain ⟨first, -, hfirst', -, horigin, -, -⟩ := hchain.link link.origin le_rfl (by omega)
  obtain rfl : head = first := Option.some.inj (hhead.symm.trans hfirst')
  refine ⟨head, (mem_heads hhead).2 horigin, hhead, ?_, ?_⟩
  · rcases Nat.eq_or_lt_of_le hfirst with heq | hlt
    · rw [heq, hi] at hhead
      rwa [← Option.some.inj hhead]
    · -- all links but the last are values
      obtain ⟨first, b, hfirst', hvalue, -⟩ := hchain.next link.origin le_rfl (by omega)
      rw [Option.some.inj (hhead.symm.trans hfirst'), hvalue]
      decide
  · rw [Arena.raw, hhead]
    simp only
    rw [horigin, hhead, Option.getD_some, hspan]

/-! ### What was given to a fill -/

section

variable (template : Template) (templates : TemplateMap) (data : Provider)

/-- The templates that were given to a fill: the one that is filled, those of the map and those that
the data carries. -/
inductive Given : Template → Prop
  | root : Given template
  | named {name : Text} {inner : Template} : templates.get? name = some inner → Given inner
  | own {own : OwnTemplate} : own ∈ data.owns → Given own.template

namespace Level

/-- The levels that a path of calls leads to from the root of the template. A fill enters no
others. -/
inductive Reached : Level → Prop
  | root {compiled : Compiled} {u : Unwrapped} : template.compile = .ok compiled →
    data.Yields u → Reached ⟨compiled.part, [u.core]⟩
  | call {level inner : Level} : Reached level → level.Calls templates inner → Reached inner

/-- The part of a level was written in a given template with this compiled form, as its root body or
as an inline template. -/
structure WrittenIn (level : Level) (origin : Template) (compiled : Compiled) : Prop where
  given : Given template templates data origin
  compile : Stencil.compile origin.source = .ok compiled
  source : level.part.source = origin.source
  shown : level.part.body.ShownIn compiled.arena

/-- The link is one of the substitutions of a level, which are those of its part. -/
def Has (level : Level) (link : Node) : Prop :=
  ∃ piece ∈ level.part.body.pieces, piece.action.IsLink piece.place.span link

end Level

end

/-- A link of a substitution is at fault, in the scopes of a level. Each case has what the error
says of it. -/
inductive Node.FaultsIn (templates : TemplateMap) (scopes : Scopes) (link : Node) :
    FillFault → Text → Prop
  /-- The template that the link refers to is not in the map, and the error names that template. -/
  | missing {name : Text} : link.reference? = some name → templates.get? name = none →
    FaultsIn templates scopes link .missingTemplate name
  | noScope : link.kind = .insert → scopes.rewind link.rewind = [] →
    FaultsIn templates scopes link .unresolved link.name
  | unresolved : link.kind = .value → (scopes.rewind link.rewind).find? link.name = none →
    FaultsIn templates scopes link .unresolved link.name
  | empty {passed : Nat} {v : Provider} : link.kind = .value →
    (scopes.rewind link.rewind).find? link.name = some (v, passed) → v.Lacks →
    FaultsIn templates scopes link .emptyValue link.name
  | emptyElement {passed : Nat} {v item : Provider} {items : List Provider}
      {own : Option OwnTemplate} : link.kind = .value →
    (scopes.rewind link.rewind).find? link.name = some (v, passed) →
    v.Yields ⟨.sequence items, own⟩ → item ∈ items → item.Lacks →
    FaultsIn templates scopes link .emptyValue link.name
  /-- The value is a map, and neither the link nor the value has a template for it. -/
  | noTemplate {passed : Nat} {v : Provider} {inner : Option OwnTemplate}
      {entries : List (Text × Provider)} : link.kind = .value → link.target = .own →
    (scopes.rewind link.rewind).find? link.name = some (v, passed) →
    v.Yields ⟨.map inner entries, none⟩ → FaultsIn templates scopes link .noTemplate link.name
  /-- The value is a sequence, and neither the link nor one of its elements has a template for that
  element. -/
  | noElementTemplate {passed : Nat} {v item : Provider} {items : List Provider}
      {own : Option OwnTemplate} {core : Core} : link.kind = .value → link.target = .own →
    (scopes.rewind link.rewind).find? link.name = some (v, passed) →
    v.Yields ⟨.sequence items, own⟩ → item ∈ items → item.Yields ⟨core, none⟩ →
    FaultsIn templates scopes link .noElementTemplate link.name

section

variable {templates : TemplateMap} {source : Text} {place : Placement} {scopes : Scopes}
  {action : Action} {arena : Arena}

/-- The link that refers to the template that a substitution asks for, which need not be its first
one. -/
theorem Action.ShownIn.exists_reference {span : Span} (h : action.ShownIn arena span) {name : Text}
    (hasked : action.asked? = some name) :
    ∃ link ∈ arena.nodes, action.IsLink span link ∧ link.reference? = some name := by
  match action with
  | .comment => cases hasked
  | .insert rewind other =>
    obtain rfl : other = name := Option.some.inj hasked
    obtain ⟨link, hlink, hdescribes⟩ := h
    exact ⟨link, hlink, hdescribes, by simp [Node.reference?, hdescribes.kind, hdescribes.name]⟩
  | .value rewind first (.named other) =>
    obtain rfl : other = name := Option.some.inj hasked
    obtain ⟨link, hlink, hdescribes, htarget⟩ := h
    exact ⟨link, hlink, hdescribes, by simp [Node.reference?, hdescribes.kind, htarget]⟩
  | .value rewind first .own | .value rewind first (.inline body)
  | .value rewind first (.link next target) => cases hasked

/-- An error of a substitution is that of a link in the arena, and it quotes the substitution and
the source as they are. -/
theorem Action.Faults.exists_link (hshown : action.ShownIn arena place.span)
    {error : SubstitutionError}
    (h : action.Faults templates source place scopes (.substitution error)) :
    error.substitution = place.span.slice source ∧ error.template = source ∧
      ∃ link ∈ arena.nodes, action.IsLink place.span link ∧
        link.FaultsIn templates scopes error.fault error.name := by
  cases h with
  | missing hasked hget =>
    obtain ⟨link, hlink, his, hreference⟩ := hshown.exists_reference hasked
    exact ⟨rfl, rfl, link, hlink, his, .missing hreference hget⟩
  | noScope hscopes =>
    obtain ⟨link, hlink, hkind, hspan, rfl, rfl⟩ := hshown
    exact ⟨rfl, rfl, link, hlink, ⟨hkind, hspan, rfl, rfl⟩, .noScope hkind hscopes⟩
  | unresolved hfind =>
    obtain ⟨link, hlink, hkind, hspan, rfl, rfl⟩ := hshown.node
    exact ⟨rfl, rfl, link, hlink, ⟨hkind, hspan, rfl, rfl⟩, .unresolved hkind hfind⟩
  | empty hfind hv =>
    obtain ⟨link, hlink, hkind, hspan, rfl, rfl⟩ := hshown.node
    exact ⟨rfl, rfl, link, hlink, ⟨hkind, hspan, rfl, rfl⟩, .empty hkind hfind hv⟩
  | emptyElement hfind hv hitem hlacks =>
    obtain ⟨link, hlink, hkind, hspan, rfl, rfl⟩ := hshown.node
    exact ⟨rfl, rfl, link, hlink, ⟨hkind, hspan, rfl, rfl⟩,
      .emptyElement hkind hfind hv hitem hlacks⟩
  | noTemplate hfind hv =>
    obtain ⟨link, hlink, ⟨hkind, hspan, rfl, rfl⟩, htarget⟩ := hshown
    exact ⟨rfl, rfl, link, hlink, ⟨hkind, hspan, rfl, rfl⟩, .noTemplate hkind htarget hfind hv⟩
  | noElementTemplate hfind hv hitem hu =>
    obtain ⟨link, hlink, ⟨hkind, hspan, rfl, rfl⟩, htarget⟩ := hshown
    exact ⟨rfl, rfl, link, hlink, ⟨hkind, hspan, rfl, rfl⟩,
      .noElementTemplate hkind htarget hfind hv hitem hu⟩

end

/-! ### Errors of a fill -/

section

variable (template : Template) (templates : TemplateMap) (data : Provider)

/-- Each kind of error, with what it says about its cause. Nothing else can come of a fill. -/
inductive FillError.Explained : FillError → Prop
  /-- There is no root value, so that no substitution is to blame and none is quoted. -/
  | empty : data.Lacks → Explained (.substitution ⟨.emptyValue, [], [], template.source⟩)
  /-- A link of a substitution in one of the given templates is at fault, in scopes that the fill
  gets to. -/
  | substitution {error : SubstitutionError} {origin : Template} {compiled : Compiled}
      {level : Level} {head link : Node} : level.Reached template templates data →
    level.WrittenIn template templates data origin compiled → error.template = origin.source →
    link.origin ∈ compiled.arena.heads → compiled.arena.nodes[link.origin]? = some head →
    head.kind ≠ .comment →
    error.substitution = compiled.arena.raw origin.source link.origin →
    link ∈ compiled.arena.nodes → level.Has link →
    link.FaultsIn templates level.scopes error.fault error.name →
    Explained (.substitution error)
  | malformedNamed {name : Text} {inner : Template} {e : SyntaxError} :
    templates.get? name = some inner → compile inner.source = .error e →
    Explained (.malformedNamed name e)
  | malformed {own : OwnTemplate} {e : SyntaxError} : own ∈ data.owns →
    compile own.template.source = .error e → Explained (.malformed e)

/-- All templates that were given to a fill keep only forms that their sources compile to, as every
session makes sure. -/
structure GivenFaithful : Prop where
  root : template.Faithful
  named : templates.Faithful
  own : data.Faithful

end

variable {template : Template} {templates : TemplateMap} {data : Provider}

theorem GivenFaithful.compile_eq (hfaithful : GivenFaithful template templates data)
    {inner : Template} (h : Given template templates data inner) :
    inner.compile = compile inner.source := by
  cases h with
  | root => exact hfaithful.root.compile_eq
  | named hget => exact (hfaithful.named _ (TemplateMap.mem_of_get? hget)).compile_eq
  | own hown => exact (hfaithful.own _ hown).compile_eq

namespace Level

variable {level inner : Level} {origin : Template} {compiled : Compiled}

/-- The root part of a given template was written in that template, whatever its scopes are. -/
theorem writtenIn_root (hfaithful : GivenFaithful template templates data)
    (hgiven : Given template templates data origin) (hcompile : origin.compile = .ok compiled)
    (scopes : Scopes) :
    WrittenIn template templates data ⟨compiled.part, scopes⟩ origin compiled := by
  rw [hfaithful.compile_eq hgiven] at hcompile
  exact ⟨hgiven, hcompile, (compile_eq_ok.1 hcompile).1, compiled.shownIn_arena⟩

/-- A level calls parts of its own template and root parts of others, so that all of them were
written in given templates. -/
theorem WrittenIn.calls (hfaithful : GivenFaithful template templates data)
    (h : level.WrittenIn template templates data origin compiled)
    (howns : level.scopes.OwnsIn data.owns) (hcalls : level.Calls templates inner) :
    ∃ origin compiled, inner.WrittenIn template templates data origin compiled := by
  obtain ⟨piece, hpiece, henters⟩ := hcalls
  have hshown := h.shown.piece hpiece
  generalize piece.action = action at henters hshown
  cases henters with
  | insert hget hcompile _ =>
    exact ⟨_, _, writtenIn_root hfaithful (.named hget) hcompile _⟩
  | @value rewind passed name target v u part hfind hserves hchooses =>
    generalize hown : u.own = own at hchooses
    cases hchooses with
    | own hcompile =>
      have hmem := (howns.serves hfind hserves).own _ hown
      exact ⟨_, _, writtenIn_root hfaithful (.own hmem) hcompile _⟩
    | named hget hcompile => exact ⟨_, _, writtenIn_root hfaithful (.named hget) hcompile _⟩
    | inline => exact ⟨origin, compiled, h.given, h.compile, h.source, hshown.2⟩
    | link => exact ⟨origin, compiled, h.given, h.compile, h.source, hshown.2, trivial⟩

theorem Reached.path (h : level.Reached template templates data)
    (hpath : Relation.ReflTransGen (Calls templates) level inner) :
    inner.Reached template templates data := by
  induction hpath with
  | refl => exact h
  | tail _ hcalls ih => exact .call ih hcalls

/-- Wherever a fill gets to, it is in a given template and in given data. The induction is on the
calls that lead there. -/
theorem Reached.writtenIn (hfaithful : GivenFaithful template templates data)
    (h : level.Reached template templates data) :
    level.scopes.OwnsIn data.owns ∧
      ∃ origin compiled, level.WrittenIn template templates data origin compiled := by
  induction h with
  | root hcompile hu =>
    exact ⟨List.forall_mem_singleton.2 hu.ownsIn.core, _, _,
      writtenIn_root hfaithful .root hcompile _⟩
  | call _ hcalls ih =>
    obtain ⟨howns, origin, compiled, hwritten⟩ := ih
    refine ⟨?_, hwritten.calls hfaithful howns hcalls⟩
    obtain ⟨piece, -, henters⟩ := hcalls
    exact howns.enters henters

/-- What a level can itself fail with is explained, by one of its links or by a template that does
not compile. -/
theorem Reached.explained (hfaithful : GivenFaithful template templates data)
    (h : level.Reached template templates data) {e : FillError}
    (hfaults : level.Faults templates e) : e.Explained template templates data := by
  obtain ⟨howns, origin, compiled, hwritten⟩ := h.writtenIn hfaithful
  obtain ⟨⟨kept, place, action⟩, hpiece, hfault⟩ := hfaults
  cases e with
  | substitution error =>
    have hshown := hwritten.shown.piece hpiece
    obtain ⟨hraw, hsource, link, hlink, his, hlinkFault⟩ := hfault.exists_link hshown
    obtain ⟨head, hhead, hnode, hheadKind, hheadRaw⟩ :=
      (compile_wellFormed hwritten.compile).exists_head origin.source hlink his.kind_ne
    refine .substitution h hwritten (hsource.trans hwritten.source) hhead hnode hheadKind ?_ hlink
      ⟨_, hpiece, his⟩ hlinkFault
    rw [hraw, hheadRaw, his.span_eq, hwritten.source]
  | malformedNamed name e =>
    cases hfault with
    | malformedNamed _ hget hcompile =>
      rw [hfaithful.compile_eq (.named hget)] at hcompile
      exact .malformedNamed hget hcompile
  | malformed e =>
    cases hfault with
    | malformed hfind hserves hown hcompile =>
      have hmem := (howns.serves hfind hserves).own _ hown
      rw [hfaithful.compile_eq (.own hmem)] at hcompile
      exact .malformed hmem hcompile

end Level

/-- Every error of a fill points at its cause: at an empty root value, at a link of a substitution
in one of the given templates, or at a given template that does not compile. -/
theorem fillWithin_explained {compiled : Compiled} (h : template.compile = .ok compiled)
    (hfaithful : GivenFaithful template templates data) {limit : Nat} {t : Tally} {e : FillError}
    (herror : ((template.fillWithin limit templates data).run t).result = .error (.failed e)) :
    e.Explained template templates data := by
  rw [Template.fillWithin_of_compile h] at herror
  have hsource : compiled.source = template.source := by
    rw [hfaithful.root.compile_eq] at h
    exact (compile_eq_ok.1 h).1
  obtain ⟨t', hstops⟩ := Filling.stops_unwrap_bind ⟨t, herror⟩
  cases hroot : (data.unwrap t').1 with
  | none =>
    rw [hroot] at hstops
    cases Filling.eq_of_stops_stop hstops
    rw [hsource]
    exact .empty ⟨t', hroot⟩
  | some u =>
    rw [hroot] at hstops
    let root : Level := ⟨compiled.part, [u.core]⟩
    have hreached : root.Reached template templates data := .root h ⟨t', hroot⟩
    have hroot : (fillPart templates limit root.part root.scopes).Stops (.failed e) := hstops
    obtain ⟨level, hpath, hfaults⟩ := Level.exists_faults hroot
    exact (hreached.path hpath).explained hfaithful hfaults

/-- A dotted name, which has a link for each of its components. -/
def dottedSource : Text :=
  "\x7b\x7by.z\x7d\x7d".toList

/-- A map that carries a template, but does not know the last component of its dotted name, so that
a later link is at fault. -/
def dottedData : Provider :=
  .map none [(['x'], .map (some ⟨0, .new dottedSource⟩) [(['y'], .scalar ['1'])])]

/-- The template that is filled with the data: the dotted name alone. -/
def dottedTemplate : Template :=
  .new "\x7b\x7bx\x7d\x7d".toList

theorem fillWithin_explained_dotted :
    ∃ compiled, dottedTemplate.compile = .ok compiled ∧
      GivenFaithful dottedTemplate .empty dottedData ∧
      ((dottedTemplate.fillWithin 9 .empty dottedData).run .empty).result =
        .error (.failed (.substitution ⟨.unresolved, ['z'], dottedSource, dottedSource⟩)) ∧
      FillError.Explained dottedTemplate .empty dottedData
        (.substitution ⟨.unresolved, ['z'], dottedSource, dottedSource⟩) := by
  have hsome : (compile dottedTemplate.source).toOption.isSome = true := by decide +kernel
  have herror : ((dottedTemplate.fillWithin 9 .empty dottedData).run .empty).result =
      .error (.failed (.substitution ⟨.unresolved, ['z'], dottedSource, dottedSource⟩)) := by
    decide +kernel
  have hfaithful : GivenFaithful dottedTemplate .empty dottedData := by
    refine ⟨Template.faithful_new _, TemplateMap.faithful_empty, fun own hown => ?_⟩
    obtain rfl := List.mem_singleton.1 hown
    exact Template.faithful_new _
  obtain ⟨compiled, h⟩ := exists_compile hsome
  have hcompile : dottedTemplate.compile = .ok compiled := h
  exact ⟨compiled, hcompile, hfaithful, herror, fillWithin_explained hcompile hfaithful herror⟩

end Stencil
