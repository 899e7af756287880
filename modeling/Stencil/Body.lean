import Stencil.Text

/-!
# Template bodies

A compiled template is a tree. A body is literal text with substitutions between, and a
value may bring the body that it is filled into. A dotted name is a chain of links: each
link but the last is filled into the next one.
-/
namespace Stencil

/-- The bytes from `start` up to `stop` of the outermost source, also for a substitution of an
inline template. -/
structure Span where
  start : Nat
  stop : Nat
deriving DecidableEq, Repr

/-- How the elements of a sequence are put together. It belongs to a substitution as a whole, and
all links of a dotted name share it. -/
structure Joining where
  separator : Text
  /-- The separator also comes before the first element. -/
  leading : Bool
  /-- Empty elements are dropped together with their separator. -/
  ignoreEmpty : Bool
deriving DecidableEq, Repr

/-- Where a substitution stands, and what is written around it when it is not empty. The texts
around it were cut from the literals before and after it. -/
structure Placement where
  span : Span
  joining : Joining
  leading : Text
  trailing : Text
deriving DecidableEq, Repr

mutual

inductive Body
  | tail (literal : Text)
  | piece (literal : Text) (place : Placement) (action : Action) (rest : Body)

inductive Action
  | comment
  /-- Splices a named template, filled in the scope that `rewind` dots lead to. No value and no new
  scope come in between. -/
  | insert (rewind : Nat) (name : Text)
  | value (rewind : Nat) (name : Text) (target : Target)

/-- What a resolved value is filled into, as the data section of the substitution says. -/
inductive Target
  /-- The template that the value carries itself, or none when it carries none. -/
  | own
  | named (name : Text)
  | inline (body : Body)
  /-- The next link of a dotted name, which is looked up in the value of this one. -/
  | link (name : Text) (target : Target)

end

namespace Placement

/-- The place of a later link of a dotted name: nothing is written around it, as the first link has
the texts around the whole name. -/
def inner (place : Placement) : Placement :=
  { place with leading := [], trailing := [] }

/-- Writes a text with what stands around it, or nothing when it is empty. So a line can go away
with what was alone on it. -/
def wrap (place : Placement) (text : Text) : Text :=
  match text with
  | [] => []
  | _ :: _ => place.leading ++ text ++ place.trailing

end Placement

/-- The body that holds one link of a dotted name and nothing else. Each link but the last is filled
into such a body. -/
def Body.ofLink (place : Placement) (name : Text) (target : Target) : Body :=
  .piece [] place.inner (.value 0 name target) (.tail [])

/-- The links after the first one of a dotted name, the last of them with the target that the data
section gives. -/
def Target.ofLinks (names : List Text) (target : Target) : Target :=
  names.foldr .link target

/-! ### Names -/

mutual

/-- The names of all value substitutions, in the order of the source and with those of inline
templates in their places. -/
def Body.names : Body → List Text
  | .tail _ => []
  | .piece _ _ action rest => action.names ++ rest.names

def Action.names : Action → List Text
  | .comment => []
  | .insert _ _ => []
  | .value _ name target => name :: target.names

def Target.names : Target → List Text
  | .own => []
  | .named _ => []
  | .inline body => body.names
  | .link name target => name :: target.names

end

mutual

/-- The templates that a body refers to by name, in the order of the source: insertions and named
data sections alike. -/
def Body.references : Body → List Text
  | .tail _ => []
  | .piece _ _ action rest => action.references ++ rest.references

def Action.references : Action → List Text
  | .comment => []
  | .insert _ name => [name]
  | .value _ _ target => target.references

def Target.references : Target → List Text
  | .own => []
  | .named name => [name]
  | .inline body => body.references
  | .link _ target => target.references

end

/-- The literal texts of a body, the last one only when it is not empty. All others stand before a
substitution and are kept even so. -/
def Body.statics : Body → List Text
  | .tail [] => []
  | .tail literal => [literal]
  | .piece literal _ _ rest => literal :: rest.statics

/-- A filled body is at least this many bytes long, as its literals are always written. What
substitutions may add is not counted. -/
def Body.sizeHint (body : Body) : Nat :=
  Text.bytes body.statics.flatten

end Stencil
