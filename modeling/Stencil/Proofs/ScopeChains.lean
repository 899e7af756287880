import Stencil.Proofs.Concatenation
import Stencil.Proofs.Entering
import Stencil.Proofs.ErrorSites
import Stencil.Shape

/-!
# Chains of scopes

Each level of a fill has a chain of scopes, from the innermost one to the root of the data. A
substitution enters other levels in its own chain with one more scope in front of it, or, when it
is an insertion, in what its dots leave of the chain.
-/
namespace Stencil

open Filling

/-- The scopes in which a substitution enters a level. What is under the wrappers of a value that is
no sequence becomes a scope, and so does what is under those of an element. -/
inductive Action.Frames (scopes : Scopes) : Action → Scopes → Prop
  | insert {dots : Nat} {name : Text} : max dots 1 - 1 < scopes.length →
    Frames scopes (.insert dots name) (scopes.drop (max dots 1 - 1))
  | alone {dots i : Nat} {name : Text} {target : Target} {v : Provider} {u : Unwrapped} :
    scopes.Resolves dots name i v → (∀ t, v.unwrap t = (some u, t)) →
    (∀ items, u.core ≠ .sequence items) → Frames scopes (.value dots name target) (u.core :: scopes)
  | element {dots i : Nat} {name : Text} {target : Target} {v item : Provider}
      {items : List Provider} {own : Option OwnTemplate} {u : Unwrapped} :
    scopes.Resolves dots name i v → (∀ t, v.unwrap t = (some ⟨.sequence items, own⟩, t)) →
    item ∈ items → (∀ t, item.unwrap t = (some u, t)) →
    Frames scopes (.value dots name target) (u.core :: scopes)

/-- The scopes of a level, and how others come from them. Each field is one rule of how names are
found. -/
structure Level.InChain (templates : TemplateMap) (root : Core) (level : Level) : Prop where
  /-- No scope has wrappers: it shows as a scalar, a sequence or a map, whatever the counters
  are. -/
  bare : ∀ core ∈ level.scopes, ∀ t, core.toProvider.shape t = (.ofCore core, t)
  root : level.scopes.getLast? = some root
  frames : ∀ piece ∈ level.part.body.pieces, ∀ inner,
    piece.action.Enters templates level.part.source piece.place level.scopes inner →
      piece.action.Frames level.scopes inner.scopes
  /-- The next link of a dotted name is a substitution without dots, in a level of its own, and that
  level has nothing else. -/
  links : ∀ piece ∈ level.part.body.pieces, ∀ dots name next target inner,
    piece.action = .value dots name (.link next target) →
    piece.action.Enters templates level.part.source piece.place level.scopes inner →
      inner.part.body.pieces = [⟨[], piece.place.inner, .value 0 next target⟩]
  /-- A level with a text has entered all that it calls, so that each of these levels has a text,
  too. -/
  entered : ∀ (enter : Enter) (text : Text),
    (fillBody templates enter level.part.source level.scopes level.part.body).Gives text →
      ∀ inner, level.Calls templates inner →
        ∃ inside, (enter inner.part inner.scopes).Gives inside

section

variable {template : Template} {templates : TemplateMap} {data : Provider} {source : Text}
  {place : Placement} {scopes : Scopes} {action : Action} {level inner : Level}

theorem Action.Enters.frames (h : action.Enters templates source place scopes inner)
    (hscopes : scopes.CounterFree) : action.Frames scopes inner.scopes := by
  cases h with
  | @insert dots _ _ _ _ _ hne =>
    have hlt : dots - 1 < scopes.length := by
      simpa [Scopes.rewind, List.drop_eq_nil_iff] using hne
    have hfirst : dots - 1 = max dots 1 - 1 := by omega
    rw [Scopes.rewind, hfirst]
    exact .insert (hfirst ▸ hlt)
  | value hfind hserves _ =>
    have hv := hscopes.find? hfind
    have hresolves := Scopes.resolves_iff.2 ⟨_, hfind, rfl⟩
    cases hserves with
    | alone hu halone => exact .alone hresolves (hu.unwrap_eq hv) halone
    | element hsequence hitem hu =>
      exact .element hresolves (hsequence.unwrap_eq hv) hitem
        (hu.unwrap_eq (hsequence.counterFree_item hv hitem))

theorem Action.Enters.counterFree (h : action.Enters templates source place scopes inner)
    (hscopes : scopes.CounterFree) : inner.scopes.CounterFree := by
  cases h with
  | insert _ _ _ => exact fun core hcore => hscopes core (List.mem_of_mem_drop hcore)
  | value hfind hserves _ =>
    exact List.forall_mem_cons.2 ⟨hserves.counterFree (hscopes.find? hfind), hscopes⟩

/-- The outermost scope stays where it is: dots may lead to it, but never past it. -/
theorem Action.Frames.getLast? {scopes' : Scopes} (h : action.Frames scopes scopes') {root : Core}
    (hroot : scopes.getLast? = some root) : scopes'.getLast? = some root := by
  cases h with
  | insert hlt => rwa [List.getLast?_drop, if_neg (by omega)]
  | alone _ _ _ | element _ _ _ _ =>
    rw [List.getLast?_cons, hroot]
    rfl

/-- The scopes of a level come from those of the root, which is their outermost one. The induction
is on the calls. -/
theorem Level.Reached.rooted {root : Unwrapped} (h : level.Reached template templates data)
    (hfree : data.counterFree = true) (hroot : data.Yields root) :
    level.scopes.CounterFree ∧ level.scopes.getLast? = some root.core := by
  -- Along the path no scope gets a counter, and so a value unwraps to the same each time.
  induction h with
  | root _ hu =>
    obtain rfl : _ = root :=
      Option.some.inj (congrArg Prod.fst ((hu.unwrap_eq hfree .empty).symm.trans
        (hroot.unwrap_eq hfree .empty)))
    exact ⟨List.forall_mem_singleton.2 (hu.counterFree hfree), rfl⟩
  | call _ hcalls ih =>
    obtain ⟨hscopes, hlast⟩ := ih
    obtain ⟨piece, -, henters⟩ := hcalls
    exact ⟨henters.counterFree hscopes, (henters.frames hscopes).getLast? hlast⟩

theorem Level.Reached.inChain {root : Unwrapped} (h : level.Reached template templates data)
    (hfree : data.counterFree = true) (hroot : data.Yields root) :
    level.InChain templates root.core := by
  obtain ⟨hscopes, hlast⟩ := h.rooted hfree hroot
  refine ⟨fun core _ t => ?_, hlast, fun piece _ inner henters => henters.frames hscopes, ?_,
    fun enter text htext inner ⟨piece, hpiece, henters⟩ =>
      gives_of_fillBody hscopes hpiece henters htext⟩
  · cases core <;> rfl
  · rintro piece - dots name next target inner haction henters
    rw [haction] at henters
    cases henters with
    | value _ _ hchooses =>
      cases hchooses
      rfl

end

/-- A fill starts in the scope of the root and goes from level to level. In each the chain of scopes
ends with the root, and names are resolved along the chain. -/
theorem fillWithin_scopes {template : Template} {compiled : Compiled} {data : Provider}
    {root : Unwrapped} (h : template.compile = .ok compiled) (hfree : data.counterFree = true)
    (hroot : data.Yields root) (templates : TemplateMap) :
    (∀ alarm limit t, (template.fillWithin limit templates data).run t =
      (fillWatched templates (Level.Calls templates) alarm limit compiled.part [root.core]).run t) ∧
    Level.Reached template templates data ⟨compiled.part, [root.core]⟩ ∧
    (∀ level : Level, level.Reached template templates data →
      level.InChain templates root.core ∧
      ∀ inner : Level, level.Calls templates inner → inner.Reached template templates data) ∧
    ∀ (spot : Spot) (dots : Nat) (scopes : Scopes), spot.ResolvesIn dots scopes := by
  refine ⟨fun alarm limit t => ?_, .root h hroot, fun level hlevel => ⟨hlevel.inChain hfree hroot,
    fun inner => .call hlevel⟩, Spot.resolvesIn⟩
  rw [fillWatched_calls, Template.fillWithin_of_compile h, run_fillRoot (hroot.unwrap_eq hfree t)]

/-- A dotted name with an inline template, in which dots lead to outer scopes. -/
def scopedTemplate : Template :=
  .new ("\x7b\x7ba.b|!\x7b\x7b\x7d\x7d\x7b\x7b..|!\x7b\x7bc\x7d\x7d\x7d\x7d".toList ++
    "\x7b\x7b!.n\x7d\x7d\x7d\x7d".toList)

/-- A template for the innermost scope of its insertion, which brings no scope of its own. -/
def scopedTemplates : TemplateMap :=
  .ofList [(['n'], .new "\x7b\x7b...c\x7d\x7d".toList)]

/-- The scope of the links after the first one, which is what the first component stands for. -/
def scopedInner : Core :=
  .map none [(['b'], .sequence [.scalar ['2'], .delegate none (.scalar ['3'])]),
    (['c'], .scalar ['1'])]

/-- A map below wrappers with a sequence in it. The wrappers are no scopes. -/
def scopedRoot : Core :=
  .map none [(['a'], .pointer scopedInner.toProvider), (['c'], .scalar ['0'])]

def scopedData : Provider :=
  .callback scopedRoot.toProvider

theorem fillWithin_scopes_nested :
    ∃ compiled, scopedTemplate.compile = .ok compiled ∧ scopedData.counterFree = true ∧
      scopedData.Yields (.ofCore scopedRoot) ∧
      (∀ alarm, ((fillWatched scopedTemplates (Level.Calls scopedTemplates) alarm 9 compiled.part
        [scopedRoot]).run .empty).result = .ok "210\n310".toList) ∧
      ∀ level : Level, level.Reached scopedTemplate scopedTemplates scopedData →
        level.InChain scopedTemplates scopedRoot := by
  have hsome : (compile scopedTemplate.source).toOption.isSome = true := by decide +kernel
  have hfill : ((scopedTemplate.fillWithin 9 scopedTemplates scopedData).run .empty).result =
      .ok "210\n310".toList := by
    decide +kernel
  obtain ⟨compiled, hsource⟩ := exists_compile hsome
  have h : scopedTemplate.compile = .ok compiled := hsource
  have hroot : scopedData.Yields (.ofCore scopedRoot) := ⟨.empty, rfl⟩
  obtain ⟨hrun, -, hlevels, -⟩ := fillWithin_scopes h rfl hroot scopedTemplates
  refine ⟨compiled, h, rfl, hroot, fun alarm => ?_, fun level hlevel => (hlevels level hlevel).1⟩
  rw [← hfill, hrun alarm]
  rfl

end Stencil
