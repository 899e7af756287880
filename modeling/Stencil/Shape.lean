import Stencil.Provider
import Stencil.Quoted

/-!
# Shapes

The shape of a provider is what it shows of itself when it is asked once. Pointers show what
they point to.
-/
namespace Stencil

inductive Shape
  | scalar (text : Text)
  | callback (inner : Provider)
  | sequence (items : List Provider)
  | map (entries : List (Text × Provider))
  | delegate (inner : Provider)
  | passThrough (inner : Option Provider)

namespace Shape

def ofCore : Core → Shape
  | .scalar text => .scalar text
  | .sequence items => .sequence items
  | .map _ entries => .map entries

def name : Shape → String
  | .scalar _ => "scalar"
  | .callback _ => "callback"
  | .sequence _ => "sequence"
  | .map _ => "map"
  | .delegate _ => "delegate"
  | .passThrough _ => "pass-through"

/-- The name of the shape, and for a scalar its quoted text. What is inside of other shapes is not
shown. -/
def describe : Shape → Text
  | .scalar text => "Scalar(".toList ++ Quoted.encode text ++ [')']
  | shape => shape.name.toList

end Shape

namespace Provider

/-- Asks a provider for its shape. This invokes a counter once, and nothing that is further in. -/
def shape (tally : Tally) : Provider → Shape × Tally
  | .scalar text => (.scalar text, tally)
  | .sequence items => (.sequence items, tally)
  | .map _ entries => (.map entries, tally)
  | .absent => (.passThrough none, tally)
  | .present inner => (.passThrough (some inner), tally)
  | .pointer inner => inner.shape tally
  | .callback inner => (.callback inner, tally)
  | .delegate _ inner => (.delegate inner, tally)
  | .counter id =>
    let tally := tally.bump id
    (.callback (.scalar (integerText (tally.count id))), tally)
  | .json value => (value.core.elim (.passThrough none) .ofCore, tally)

/-- The template that a provider carries itself. Pointers carry that of what they point to, and
other wrappers none but their own. -/
def own : Provider → Option OwnTemplate
  | .map own _ => own
  | .delegate own _ => own
  | .pointer inner => inner.own
  | _ => none

end Provider

/-- The description of a template: its source and whether it has its compiled form. The form itself
is not shown. -/
def Template.describe (template : Template) : Text :=
  "Template \x7b source: ".toList ++ Quoted.encode template.source ++
    ", compiled: ".toList ++ boolText template.isCompiled ++ " \x7d".toList

/-- The description of a delegate. What it delegates to stays out of it, as it would have to be
asked for. -/
def describeDelegate (own : Option Template) : Text :=
  let template := own.elim "None".toList fun template =>
    "Some(".toList ++ template.describe ++ [')']
  "Delegate \x7b template: ".toList ++ template ++ ", .. \x7d".toList

def describeCallback : Text :=
  "Callback".toList

end Stencil
