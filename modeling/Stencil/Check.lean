import Stencil.FillError
import Stencil.TemplateMap

/-!
# Checking template maps

A map is in order when all its templates compile and refer to templates of the map only. A
check goes through the templates in the order of their names and stops at the first that is
not in order. The templates that it looked at keep their compiled form.
-/
namespace Stencil.TemplateMap

/-- What is wrong with one template of a map: it does not compile, or it refers to a template that
is not there. -/
def problem? (templates : TemplateMap) (name : Text) (template : Template) : Option FillError :=
  match template.compile with
  | .error e => some (.malformedNamed name e)
  | .ok compiled =>
    (compiled.references.find? fun target => !templates.contains target).map fun missing =>
      .substitution ⟨.missingTemplate, missing, missing, compiled.source⟩

/-- The first template that is not in order, with what is wrong with it. The names come in the order
of their characters. -/
def firstProblem? (templates : TemplateMap) : Option (Text × FillError) :=
  templates.entries.findSome? fun entry =>
    (templates.problem? entry.1 entry.2).map fun problem => (entry.1, problem)

def check (templates : TemplateMap) : Except FillError Unit :=
  match templates.firstProblem? with
  | none => .ok ()
  | some (_, problem) => .error problem

/-- The map after a check: the templates that were looked at have their forms, and later ones are as
they were. -/
def checked (templates : TemplateMap) : TemplateMap :=
  match templates.firstProblem? with
  | none => templates.mapTemplates fun _ template => template.prepare
  | some (last, _) => templates.mapTemplates fun name template =>
    if last < name then template else template.prepare

end Stencil.TemplateMap
