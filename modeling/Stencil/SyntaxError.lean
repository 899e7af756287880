/-!
# Syntax errors

What can be wrong with a template source, and the byte offset where it was found.
-/
namespace Stencil

inductive SyntaxFault
  /-- Opening braces without the closing ones, at the outermost of them. -/
  | unclosed
  /-- Closing braces outside of a substitution, which would have to be escaped. -/
  | unopened
  /-- A dotted name with an empty component, or an insertion of no name. -/
  | emptyName
  /-- An insertion with a join string or a data section, as it has no value that they could be
  about. -/
  | insertData
deriving DecidableEq, Repr

structure SyntaxError where
  fault : SyntaxFault
  offset : Nat
deriving DecidableEq, Repr

def SyntaxFault.message : SyntaxFault → String
  | .unclosed => "unclosed substitution"
  | .unopened => "unexpected `\x7d\x7d` outside substitution"
  | .emptyName => "empty name"
  | .insertData => "template insertion does not accept join string or data"

def SyntaxError.message (e : SyntaxError) : String :=
  e.fault.message ++ " at byte " ++ toString e.offset

end Stencil
