import Stencil.SyntaxError
import Stencil.Text

/-!
# Fill errors

A template cannot be filled when a template that is needed does not compile, or when one of
its substitutions fails. The latter error carries the name involved, the raw substitution
and the source of the template that holds it.
-/
namespace Stencil

inductive FillFault
  /-- No scope knows the name, from the one that the dots lead to outwards. -/
  | unresolved
  /-- There is no template of this name in the map. -/
  | missingTemplate
  /-- The value is a map, and no template is given for it, neither by the substitution nor by the
  value. -/
  | noTemplate
  /-- The value is a sequence, and no template is given for an element, neither by the substitution
  nor by the element. -/
  | noElementTemplate
  /-- The value is missing once all wrappers are taken off. -/
  | emptyValue
deriving DecidableEq, Repr

structure SubstitutionError where
  fault : FillFault
  name : Text
  substitution : Text
  template : Text
deriving DecidableEq, Repr

inductive FillError
  /-- The template itself, or one that the data carries, does not compile, so that there is no name
  to tell. -/
  | malformed (error : SyntaxError)
  /-- The template of this name does not compile, which is only found out when it is needed. -/
  | malformedNamed (name : Text) (error : SyntaxError)
  | substitution (error : SubstitutionError)
deriving DecidableEq, Repr

def FillFault.message (name : String) : FillFault → String
  | .unresolved => "cannot resolve `" ++ name ++ "`"
  | .missingTemplate => "no template named `" ++ name ++ "`"
  | .noTemplate => "`" ++ name ++ "` requires a template"
  | .noElementTemplate => "`" ++ name ++ "` is a sequence without element template"
  | .emptyValue => "`" ++ name ++ "` is empty"

namespace Text

/-- The first line, without the line break that ends it, in either of the two forms of a line
break. -/
def firstLine (t : Text) : Text :=
  let line := t.takeWhile (· != '\n')
  match t.dropWhile (· != '\n') with
  | [] => line
  | _ :: _ => if line.getLast? = some '\r' then line.dropLast else line

/-- The first line or its first 48 characters, with two dots where text is left out. Messages quote
no more of a template. -/
def excerpt (t : Text) : Text :=
  let line := t.firstLine
  if 48 < line.length then line.take 48 ++ ['.', '.']
  else if line.length < t.length then line ++ ['.', '.']
  else line

end Text

def SubstitutionError.message (e : SubstitutionError) : String :=
  e.fault.message (String.ofList e.name) ++ " in `" ++ String.ofList e.substitution ++
    "` of template `" ++ String.ofList e.template.excerpt ++ "`"

def FillError.message : FillError → String
  | .malformed e => e.message
  | .malformedNamed name e => "in template `" ++ String.ofList name ++ "`: " ++ e.message
  | .substitution e => e.message

end Stencil
