import Stencil.Filling
import Stencil.TemplateMap

/-!
# Filling templates

A body is filled in a chain of scopes, the innermost first. A name is looked up in the scope
where its dots lead to and then in every scope further out. The value found is filled into the
template that the substitution gives, or else into the one that the value carries, in a new
scope of its own; a text without any template stands for itself, and the elements of a
sequence are filled one by one and joined.

The templates entered at the same time are counted against a limit, because templates may
refer to each other in a circle.
-/
namespace Stencil

/-- A body with the source of the template that it was written in, which errors about it quote. -/
structure Part where
  source : Text
  body : Body

def Compiled.part (compiled : Compiled) : Part :=
  ⟨compiled.source, compiled.root⟩

/-- The scopes around a substitution, the innermost first. Filling a value into a part puts the
value in front. -/
abbrev Scopes := List Core

namespace Scopes

/-- One dot stands for the innermost scope, and each more leads one scope further out. Without dots
the search starts innermost too. -/
def rewind (dots : Nat) (scopes : Scopes) : Scopes :=
  scopes.drop (dots - 1)

/-- The first scope that knows a name gives the value, after `depth` scopes that do not. Scopes
further out are not asked. -/
def find? (name : Text) : Scopes → Option (Provider × Nat)
  | [] => none
  | scope :: outer =>
    match scope.lookup name with
    | some value => some (value, 0)
    | none => (find? name outer).map fun (value, depth) => (value, depth + 1)

end Scopes

namespace Joining

/-- Puts the texts of the elements together. Empty ones are dropped before that, with their
separators, when the joining says so. -/
def join (joining : Joining) (texts : List Text) : Text :=
  let kept := if joining.ignoreEmpty then texts.filter (!·.isEmpty) else texts
  let lead := if joining.leading && !kept.isEmpty then joining.separator else []
  lead ++ joining.separator.intercalate kept

end Joining

/-- A substitution in its template, as an error reports it. The name is that of the link in
question, and the raw text that of the whole substitution. -/
structure Spot where
  source : Text
  place : Placement
  name : Text

namespace Spot

def error (spot : Spot) (fault : FillFault) : SubstitutionError where
  fault := fault
  name := spot.name
  substitution := spot.place.span.slice spot.source
  template := spot.source

def fail {α : Type} (spot : Spot) (fault : FillFault) : Filling α :=
  .fail (.substitution (spot.error fault))

end Spot

/-- How to fill a part in a chain of scopes. The functions below take it as a parameter, and only
`fillPart` ties the knot. -/
abbrev Enter := Part → Scopes → Filling Text

/-- The value of a name, with the number of scopes passed over noted if there were any. -/
def resolve (spot : Spot) (rewind : Nat) (scopes : Scopes) : Filling Provider :=
  match (scopes.rewind rewind).find? spot.name with
  | none => spot.fail .unresolved
  | some (value, passed) => do
    let depth := rewind - 1 + passed
    if 0 < depth then Filling.note (.outer spot.name depth)
    pure value

/-- The root body of a named template, which is compiled now unless it has its form already. -/
def namedPart (templates : TemplateMap) (spot : Spot) (name : Text) : Filling Part :=
  match templates.get? name with
  | none => Spot.fail { spot with name } .missingTemplate
  | some template => do
    Filling.note (.used (.named name) template)
    let compiled ← Filling.ofExcept (template.compile.mapError (.malformedNamed name))
    pure compiled.part

/-- The root body of a template that a provider carries, which is compiled now unless it has its
form already. -/
def ownPart (own : OwnTemplate) : Filling Part := do
  Filling.note (.used (.own own.cell) own.template)
  let compiled ← Filling.ofExcept (own.template.compile.mapError .malformed)
  pure compiled.part

/-- What the substitution gives to fill its value into. That is nothing when the value's own
template is to be used. -/
def targetPart (templates : TemplateMap) (spot : Spot) : Target → Filling (Option Part)
  | .own => pure none
  | .named name => some <$> namedPart templates spot name
  | .inline body => pure (some ⟨spot.source, body⟩)
  | .link name target => pure (some ⟨spot.source, .ofLink spot.place name target⟩)

/-- The part given by the substitution, or else the value's own template. The own template is not
even compiled when it is not used. -/
def choosePart (given : Option Part) (own : Option OwnTemplate) : Filling (Option Part) :=
  match given, own with
  | some part, _ => pure (some part)
  | none, some own => some <$> ownPart own
  | none, none => pure none

/-- Fills an element of a sequence, which always needs a template. The element becomes the innermost
scope. -/
def fillElement (enter : Enter) (spot : Spot) (given : Option Part) (scopes : Scopes)
    (item : Provider) : Filling Text := do
  match ← Filling.unwrap item with
  | none => spot.fail .emptyValue
  | some found =>
    match ← choosePart given found.own with
    | none => spot.fail .noElementTemplate
    | some part => enter part (found.core :: scopes)

/-- Fills the elements of a sequence, from left to right and up to the first failure. What later
elements count is not counted then. -/
def fillElements (enter : Enter) (spot : Spot) (given : Option Part) (scopes : Scopes) :
    List Provider → Filling (List Text)
  | [] => pure []
  | item :: rest => do
    let text ← fillElement enter spot given scopes item
    (text :: ·) <$> fillElements enter spot given scopes rest

def fillValue (enter : Enter) (spot : Spot) (given : Option Part) (scopes : Scopes)
    (value : Provider) : Filling Text := do
  match ← Filling.unwrap value with
  | none => spot.fail .emptyValue
  | some ⟨.scalar text, own⟩ =>
    match ← choosePart given own with
    | none => pure text
    | some part => enter part (.scalar text :: scopes)
  | some ⟨.map inner entries, own⟩ =>
    match ← choosePart given own with
    | none => spot.fail .noTemplate
    | some part => enter part (.map inner entries :: scopes)
  | some ⟨.sequence items, _⟩ =>
    spot.place.joining.join <$> fillElements enter spot given scopes items

def fillAction (templates : TemplateMap) (enter : Enter) (source : Text) (place : Placement)
    (scopes : Scopes) : Action → Filling Text
  | .comment => pure []
  | .insert rewind name => do
    let spot : Spot := ⟨source, place, name⟩
    let part ← namedPart templates spot name
    match scopes.rewind rewind with
    | [] => spot.fail .unresolved
    | inner => enter part inner
  | .value rewind name target => do
    let spot : Spot := ⟨source, place, name⟩
    let value ← resolve spot rewind scopes
    let given ← targetPart templates spot target
    fillValue enter spot given scopes value

def fillBody (templates : TemplateMap) (enter : Enter) (source : Text) (scopes : Scopes) :
    Body → Filling Text
  | .tail literal => pure literal
  | .piece literal place action rest => do
    let text ← fillAction templates enter source place scopes action
    (literal ++ place.wrap text ++ ·) <$> fillBody templates enter source scopes rest

/-- Fills a part with at most `limit` parts entered at the same time. At zero there is no text,
whatever the part holds. -/
def fillPart (templates : TemplateMap) : (limit : Nat) → Enter
  | 0, _, _ => .stop .tooDeep
  | limit + 1, part, scopes =>
    fillBody templates (fillPart templates limit) part.source scopes part.body

/-- Fills a compiled template. The root provider is the outermost scope, and templates that it
carries are not used. -/
def fillRoot (templates : TemplateMap) (limit : Nat) (compiled : Compiled) (data : Provider) :
    Filling Text := do
  match ← Filling.unwrap data with
  | none => .fail (.substitution ⟨.emptyValue, [], [], compiled.source⟩)
  | some root => fillPart templates limit compiled.part [root.core]

/-- The limit of a fill that is given none. Everything that fills takes a limit, and this one is only
its default, which no theorem depends on. -/
def depthLimit : Nat := 10000

namespace Template

/-- Compiles a template and fills it with at most `limit` parts entered at the same time. A template
that does not compile leaves no notes. -/
def fillWithin (template : Template) (limit : Nat) (templates : TemplateMap) (data : Provider) :
    Filling Text := do
  let compiled ← Filling.ofExcept (template.compile.mapError .malformed)
  fillRoot templates limit compiled data

/-- Fills a template with the named templates of a map, up to a limit that rarely has to be
given. -/
def fill (template : Template) (templates : TemplateMap) (data : Provider)
    (limit : Nat := depthLimit) : Filling Text :=
  template.fillWithin limit templates data

end Template

end Stencil
