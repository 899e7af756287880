import Stencil.Arena
import Stencil.Fill

/-!
# Traces

A trace tells what compilation and filling did, in order: the substitutions that each
compilation met and its size, the names found in outer scopes, and the failure. A template
that is kept somewhere compiles successfully at most once, so only the first use of a site
shows.
-/
namespace Stencil

inductive Event
  | visited (visit : Visit)
  | compiled (nodes bodies : Nat)
  | outer (name : Text) (depth : Nat)
  | failed (error : FillError)

namespace Compiled

def nodeCount (compiled : Compiled) : Nat :=
  compiled.arena.nodes.length

def bodyCount (compiled : Compiled) : Nat :=
  compiled.arena.bodies.length

end Compiled

/-- What compiling a template shows: each substitution, and at the end the sizes. A template with a
form is not compiled again. -/
def Template.events (template : Template) : List Event :=
  match template.form with
  | some _ => []
  | none =>
    (visits template.source).map .visited ++
      match Stencil.compile template.source with
      | .ok compiled => [.compiled compiled.nodeCount compiled.bodyCount]
      | .error _ => []

namespace Trace

/-- The events of some notes. The templates at the sites `kept` have their form already and show no
compilation. -/
def ofNotes (kept : List Site) : List Note → List Event
  | [] => []
  | .outer name depth :: rest => .outer name depth :: ofNotes kept rest
  | .used site template :: rest =>
    if kept.contains site then ofNotes kept rest
    else
      let keeps := template.compile.toOption.isSome
      template.events ++ ofNotes (if keeps then site :: kept else kept) rest

def ofResult {α : Type} : Except Stop α → List Event
  | .ok _ => []
  | .error .tooDeep => []
  | .error (.failed e) => [.failed e]

def ofReport {α : Type} (report : Report α) : List Event :=
  ofNotes [] report.notes ++ ofResult report.result

end Trace

namespace Template

/-- The trace of filling a template, from its compilation on. A template that does not compile is no
failure of a fill. -/
def trace (template : Template) (templates : TemplateMap) (data : Provider) (tally : Tally)
    (limit : Nat := depthLimit) : List Event :=
  template.events ++
    match template.compile with
    | .error _ => []
    | .ok compiled => Trace.ofReport ((fillRoot templates limit compiled data).run tally)

end Template

end Stencil
