import Stencil.Arena
import Stencil.Proofs.Resemblance
import Stencil.Proofs.Vocabulary

/-!
# Introspection

The names and the references of a template are read off its nodes, without regard to the bodies
that the nodes belong to. Together with those of the templates that the references lead to, they are
all that a fill can ask for: what no name or reference reaches may be left out of the data and of
the map of templates.
-/
namespace Stencil

/-! ### Names and references in an arena -/

/-- The template that a node refers to by name, as an insertion or in its data section. -/
def Node.reference? (node : Node) : Option Text :=
  match node.kind, node.target with
  | .insert, _ => some node.name
  | _, .named name => some name
  | _, _ => none

namespace Arena

/-- The names of all nodes with a value, in the order of the nodes and with repetitions. -/
def names (arena : Arena) : List Text :=
  (arena.nodes.filter fun node => node.kind = .value).map Node.name

def references (arena : Arena) : List Text :=
  arena.nodes.filterMap Node.reference?

/-- The arena has these names and references, in the order in which its nodes come. -/
structure Lists (arena : Arena) (names references : List Text) : Prop where
  names : arena.names = names
  references : arena.references = references

theorem Lists.append {a b : Arena} {names names' references references' : List Text}
    (ha : a.Lists names references) (hb : b.Lists names' references') :
    (a.append b).Lists (names ++ names') (references ++ references') := by
  obtain ⟨rfl, rfl⟩ := ha
  obtain ⟨rfl, rfl⟩ := hb
  constructor
  · simp [Arena.names, Arena.append]
  · simp [Arena.references, Arena.append]

/-- A node with a value that is filled into a body is put before the nodes of the body, and so is
its name. -/
theorem Lists.cons {inner : Arena} {node : Node} {names references : List Text} {target : Nat}
    {bodies : List BodyEntry} (h : inner.Lists names references) (hkind : node.kind = .value) :
    Lists ⟨{ node with target := .inline target } :: inner.nodes, bodies, inner.shared⟩
      (node.name :: names) references := by
  obtain ⟨rfl, rfl⟩ := h
  constructor
  · simp [Arena.names, hkind]
  · refine List.filterMap_cons_none ?_
    simp [Node.reference?, hkind]

end Arena

mutual

theorem Body.lists_lay (counts : Counts) :
    ∀ body : Body, (body.lay counts).2.Lists body.names body.references
  | .tail literal => ⟨rfl, rfl⟩
  | .piece literal place action rest => by
    have hfirst := action.lists_lay place counts
    exact hfirst.append (rest.lists_lay _)

theorem Action.lists_lay (place : Placement) (counts : Counts) :
    ∀ action : Action, (action.lay place counts).Lists action.names action.references
  | .comment => ⟨rfl, rfl⟩
  | .insert rewind name => ⟨rfl, rfl⟩
  | .value rewind name target => by
    obtain ⟨hnames, hreferences⟩ := target.lists_lay ⟨counts.shared, counts.nodes, place.span⟩
      (Chain.head ⟨counts.shared, counts.nodes, place.span⟩ .value name rewind place)
      { counts with shared := counts.shared + 1 } rfl rfl
    exact ⟨hnames, hreferences⟩

theorem Target.lists_lay (chain : Chain) (node : Node) (counts : Counts)
    (hkind : node.kind = .value) (htarget : node.target = .own) :
    ∀ target : Target,
      (target.lay chain node counts).Lists (node.name :: target.names) target.references
  | .own => by
    constructor
    · simp [Target.lay, Arena.names, hkind, Target.names]
    · simp [Target.lay, Arena.references, Node.reference?, hkind, htarget, Target.references]
  | .named name => by
    constructor
    · simp [Target.lay, Arena.names, hkind, Target.names]
    · simp [Target.lay, Arena.references, Node.reference?, hkind, Target.references]
  | .inline body => by
    have hinner := body.lists_lay ⟨counts.nodes + 1, counts.bodies + 1, counts.shared⟩
    exact hinner.cons hkind
  | .link name target => by
    have hinner := target.lists_lay chain
      { node with name := name, rewind := 0, leading := [], trailing := [], target := .own }
      ⟨counts.nodes + 1, counts.bodies + 1, counts.shared⟩ hkind rfl
    exact hinner.cons hkind

end

/-- The nodes of an arena show the names and the references of its template, those of inline
templates among them. -/
theorem Compiled.lists_arena (compiled : Compiled) :
    compiled.arena.Lists compiled.names compiled.references := by
  have hroot := compiled.root.lists_lay ⟨0, 1, 0⟩
  exact ⟨hroot.names, hroot.references⟩

/-! ### What a fill can ask for -/

namespace Compiled

/-- The names that the references of a template lead to, by way of the templates of the map that
compile. -/
inductive Refers (templates : TemplateMap) (compiled : Compiled) : Text → Prop
  | direct {name : Text} : name ∈ compiled.arena.references → Refers templates compiled name
  | through {name next : Text} {template : Template} {inner : Compiled} :
    Refers templates compiled name → templates.get? name = some template →
    template.compile = .ok inner → next ∈ inner.arena.references → Refers templates compiled next

/-- The names that a template and the templates that it refers to ask for, however many references
lead to them. -/
inductive Asks (templates : TemplateMap) (compiled : Compiled) : Text → Prop
  | direct {name : Text} : name ∈ compiled.arena.names → Asks templates compiled name
  | through {name asked : Text} {template : Template} {inner : Compiled} :
    Refers templates compiled name → templates.get? name = some template →
    template.compile = .ok inner → asked ∈ inner.arena.names → Asks templates compiled asked

def vocabulary (templates : TemplateMap) (compiled : Compiled) : Vocabulary where
  names := compiled.Asks templates
  references := compiled.Refers templates
  wording _ := True

variable {templates : TemplateMap} {compiled : Compiled}

theorem within_vocabulary : compiled.root.Within (compiled.vocabulary templates) where
  names name hname := .direct (by rwa [compiled.lists_arena.names])
  references name hname := .direct (by rwa [compiled.lists_arena.references])
  wording _ _ _ := trivial

theorem Refers.within_vocabulary {name : Text} {template : Template} {inner : Compiled}
    (h : compiled.Refers templates name) (hname : templates.get? name = some template)
    (hinner : template.compile = .ok inner) :
    inner.root.Within (compiled.vocabulary templates) where
  names _ hasked := .through h hname hinner (by rwa [inner.lists_arena.names])
  references _ hnext := .through h hname hinner (by rwa [inner.lists_arena.references])
  wording _ _ _ := trivial

/-- The lists hold the names and references of the template and of all templates that the second
list leads to. -/
structure CoveredBy (templates : TemplateMap) (asked referred : List Text)
    (compiled : Compiled) : Prop where
  names : compiled.arena.names ⊆ asked
  references : compiled.arena.references ⊆ referred
  inner : ∀ name ∈ referred, ∀ template inner, templates.get? name = some template →
    template.compile = .ok inner →
    inner.arena.names ⊆ asked ∧ inner.arena.references ⊆ referred

theorem CoveredBy.mem_of_refers {asked referred : List Text}
    (h : compiled.CoveredBy templates asked referred) {name : Text}
    (hname : compiled.Refers templates name) : name ∈ referred := by
  induction hname with
  | direct hname => exact h.references hname
  | through _ hget hinner hnext ih => exact (h.inner _ ih _ _ hget hinner).2 hnext

theorem CoveredBy.mem_of_asks {asked referred : List Text}
    (h : compiled.CoveredBy templates asked referred) {name : Text}
    (hname : compiled.Asks templates name) : name ∈ asked := by
  cases hname with
  | direct hname => exact h.names hname
  | through hrefers hget hinner hasked =>
    exact (h.inner _ (h.mem_of_refers hrefers) _ _ hget hinner).1 hasked

end Compiled

/-! ### Faithful templates -/

/-- A form that the template has is what its source compiles to. New templates have none, and steps
make no others. -/
def Template.Faithful (template : Template) : Prop :=
  ∀ compiled, template.form = some compiled → Stencil.compile template.source = .ok compiled

def TemplateMap.Faithful (templates : TemplateMap) : Prop :=
  ∀ entry ∈ templates.entries, entry.2.Faithful

/-- The same of all templates that a provider carries, at its top or further in. -/
def Provider.Faithful (v : Provider) : Prop :=
  ∀ own ∈ v.owns, own.template.Faithful

namespace Template

theorem faithful_new (source : Text) : (Template.new source).Faithful :=
  fun _ h => by cases h

theorem Faithful.compile_eq {template : Template} (h : template.Faithful) :
    template.compile = Stencil.compile template.source := by
  unfold compile
  split
  · rename_i compiled hform
    exact (h compiled hform).symm
  · rfl

theorem Faithful.prepare {template : Template} (h : template.Faithful) :
    template.prepare.Faithful := by
  intro compiled hform
  have hkept : template.compile.toOption = some compiled := hform
  rw [source_prepare, ← h.compile_eq]
  cases hcompile : template.compile with
  | error e => rw [hcompile] at hkept; cases hkept
  | ok other => rw [hcompile] at hkept; cases hkept; rfl

end Template

namespace TemplateMap

theorem faithful_empty : empty.Faithful :=
  fun _ h => by cases h

theorem Faithful.insert {templates : TemplateMap} (h : templates.Faithful) (name : Text)
    {template : Template} (htemplate : template.Faithful) :
    (templates.insert name template).Faithful := by
  intro entry hentry
  rcases mem_insertEntry hentry with rfl | hentry
  · exact htemplate
  · exact h entry hentry

theorem Faithful.extend {templates : TemplateMap} (h : templates.Faithful)
    {entries : List (Text × Template)} (hentries : ∀ entry ∈ entries, entry.2.Faithful) :
    (templates.extend entries).Faithful := by
  induction entries generalizing templates with
  | nil => exact h
  | cons entry rest ih =>
    obtain ⟨hentry, hrest⟩ := List.forall_mem_cons.1 hentries
    exact ih (h.insert entry.1 hentry) hrest

end TemplateMap

/-! ### Filling -/

/-- Over maps with the same sources wherever a reference leads, the same parts are found, and they
refer no further than that. -/
theorem namedPart_of_refers {templates templates' : TemplateMap} {compiled : Compiled}
    (hfaithful : templates.Faithful) (hfaithful' : templates'.Faithful)
    (hsources : ∀ name, compiled.Refers templates name →
      (templates'.get? name).map Template.source = (templates.get? name).map Template.source)
    (spot : Spot) (name : Text) (hname : compiled.Refers templates name) :
    Filling.Alike (Comparison.results Eq) (PartWithin (compiled.vocabulary templates))
      (namedPart templates spot name) (namedPart templates' spot name) := by
  have hsource := hsources name hname
  cases hget : templates.get? name with
  | none =>
    cases hget' : templates'.get? name with
    | some template' => simp [hget, hget'] at hsource
    | none =>
      simp only [namedPart, hget, hget']
      exact Filling.alike_stop rfl
  | some template =>
    cases hget' : templates'.get? name with
    | none => simp [hget, hget'] at hsource
    | some template' =>
      have hcompile : template'.compile = template.compile := by
        rw [(hfaithful _ (TemplateMap.mem_of_get? hget)).compile_eq,
          (hfaithful' _ (TemplateMap.mem_of_get? hget')).compile_eq]
        simpa [hget, hget'] using congrArg (Option.map Stencil.compile) hsource
      simp only [namedPart, hget, hget']
      exact rootPart_alike hcompile trivial (fun _ _ => rfl)
        fun inner hinner => ⟨rfl, hname.within_vocabulary hget hinner⟩

/-- A fill gives the same text or the same error over every map with the same sources wherever a
reference leads, and for all data with the same values under all names that are asked for. -/
theorem fillWithin_introspected {templates templates' : TemplateMap} {template : Template}
    {compiled : Compiled} {data data' : Provider} (h : template.compile = .ok compiled)
    (hfaithful : templates.Faithful) (hfaithful' : templates'.Faithful)
    (hsources : ∀ name, compiled.Refers templates name →
      (templates'.get? name).map Template.source = (templates.get? name).map Template.source)
    (howns : data.owns = []) (hdata : data.Alike Eq (compiled.Asks templates) data')
    (limit : Nat) (t : Tally) :
    ((template.fillWithin limit templates' data').run t).result =
      ((template.fillWithin limit templates data).run t).result := by
  let L : Likeness templates templates' := .within (compiled.vocabulary templates) Eq rfl
    (fun _ _ => rfl) (namedPart_of_refers hfaithful hfaithful' hsources)
  have hpart : L.part compiled.part compiled.part := ⟨rfl, Compiled.within_vocabulary⟩
  have halike := (L.fillRoot_alike limit hpart rfl ⟨howns, hdata⟩ t t rfl).result
  rw [Template.fillWithin_of_compile h, Template.fillWithin_of_compile h]
  generalize ((fillRoot templates limit compiled data).run t).result = r,
    ((fillRoot templates' limit compiled data').run t).result = r' at halike ⊢
  cases halike with
  | ok htext => exact congrArg Except.ok htext.symm
  | error hstop => exact congrArg Except.error hstop.symm

/-- A template for the elements of a list, and one that nothing refers to and that would ask for
another value. -/
def elementTemplates : TemplateMap :=
  .ofList [(['r'], .new "\x7b\x7by\x7d\x7d".toList), (['u'], .new "\x7b\x7bk\x7d\x7d".toList)]

/-- An element with the value that its template asks for and with one that nothing asks for. -/
def elementData : Provider :=
  .map none [(['x'], .sequence [.map none [(['k'], .scalar ['2']), (['y'], .scalar ['1'])]])]

/-- The templates without the one that nothing refers to, which gives the same output. -/
def neededTemplates : TemplateMap :=
  .ofList [(['r'], .new "\x7b\x7by\x7d\x7d".toList)]

/-- The data without the values that nothing asks for, which gives the same output. -/
def neededData : Provider :=
  .map none [(['x'], .sequence [.map none [(['y'], .scalar ['1'])]])]

theorem fillWithin_introspected_list :
    ∃ compiled, (Template.new "\x7b\x7bx|r\x7d\x7d".toList).compile = .ok compiled ∧
      elementTemplates.Faithful ∧ neededTemplates.Faithful ∧
      (∀ name, compiled.Refers elementTemplates name →
        (neededTemplates.get? name).map Template.source =
          (elementTemplates.get? name).map Template.source) ∧
      elementData.owns = [] ∧
      elementData.Alike Eq (compiled.Asks elementTemplates) neededData ∧
      (((Template.new "\x7b\x7bx|r\x7d\x7d".toList).fillWithin 9 neededTemplates neededData).run
          .empty).result =
        (((Template.new "\x7b\x7bx|r\x7d\x7d".toList).fillWithin 9 elementTemplates elementData).run
          .empty).result := by
  have hroot : ((Template.new "\x7b\x7bx|r\x7d\x7d".toList).compile.toOption.map fun compiled =>
      (compiled.arena.names, compiled.arena.references)) = some ([['x']], [['r']]) := by
    decide +kernel
  have hreached : ((elementTemplates.get? ['r']).bind fun template =>
      template.compile.toOption.map fun inner => (inner.arena.names, inner.arena.references)) =
        some ([['y']], []) := by
    decide +kernel
  have hsome : (compile "\x7b\x7bx|r\x7d\x7d".toList).toOption.isSome = true := by decide +kernel
  obtain ⟨compiled, h⟩ := exists_compile hsome
  have hcompile : (Template.new "\x7b\x7bx|r\x7d\x7d".toList).compile = .ok compiled := h
  have hcovered : compiled.CoveredBy elementTemplates [['x'], ['y']] [['r']] := by
    rw [hcompile] at hroot
    obtain ⟨hnames, hreferences⟩ := Prod.mk.inj (Option.some.inj hroot)
    refine ⟨by simp [hnames], by simp [hreferences], ?_⟩
    intro name hname template inner hget hinner
    obtain rfl : name = ['r'] := List.mem_singleton.1 hname
    rw [hget, Option.bind_some, hinner] at hreached
    obtain ⟨hnames, hreferences⟩ := Prod.mk.inj (Option.some.inj hreached)
    simp [hnames, hreferences]
  have hsources : ∀ name, compiled.Refers elementTemplates name →
      (neededTemplates.get? name).map Template.source =
        (elementTemplates.get? name).map Template.source := by
    intro name hname
    obtain rfl : name = ['r'] := List.mem_singleton.1 (hcovered.mem_of_refers hname)
    decide +kernel
  have hasked : ∀ name, compiled.Asks elementTemplates name → name = ['x'] ∨ name = ['y'] := by
    intro name hname
    simpa using hcovered.mem_of_asks hname
  have helement : Provider.Alike Eq (compiled.Asks elementTemplates)
      (.map none [(['k'], .scalar ['2']), (['y'], .scalar ['1'])])
      (.map none [(['y'], .scalar ['1'])]) := by
    refine .map (fun name hname => ?_) fun name v v' hname hv hv' => ?_
    · rcases hasked name hname with rfl | rfl <;> rfl
    · rcases hasked name hname with rfl | rfl
      · cases hv
      · cases hv; cases hv'; exact .refl _
  have hdata : elementData.Alike Eq (compiled.Asks elementTemplates) neededData := by
    refine .map (fun name hname => ?_) fun name v v' hname hv hv' => ?_
    · rcases hasked name hname with rfl | rfl <;> rfl
    · rcases hasked name hname with rfl | rfl
      · cases hv
        cases hv'
        refine .sequence rfl fun i hi hi' => ?_
        match i with
        | 0 => exact helement
        | i + 1 => exact absurd hi (by simp)
      · cases hv
  have hfaithful : elementTemplates.Faithful :=
    TemplateMap.faithful_empty.extend (by simp [Template.faithful_new])
  have hfaithful' : neededTemplates.Faithful :=
    TemplateMap.faithful_empty.extend (by simp [Template.faithful_new])
  exact ⟨compiled, hcompile, hfaithful, hfaithful', hsources, rfl, hdata,
    fillWithin_introspected hcompile hfaithful hfaithful' hsources rfl hdata 9 .empty⟩

end Stencil
