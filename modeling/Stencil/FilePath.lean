import Stencil.Text

/-!
# File paths

A path is absolute or relative and has parts that are separated by slashes. Empty parts and
single dots lead nowhere, and two dots lead back. A relative path that starts with a dot is
told apart from one that does not, unless the path is normalized.
-/
namespace Stencil

inductive PathPart
  | root
  | current
  | parent
  | name (name : Text)
deriving DecidableEq, Repr

namespace FilePath

def isAbsolute (path : Text) : Bool :=
  path.head? == some '/'

/-- What stands between the slashes, also where there is nothing between two of them. -/
def pieces (path : Text) : List Text :=
  let (first, more) := Text.splitOn '/' path
  first :: more

/-- The parts that one piece stands for: an empty piece and a single dot stand for none. -/
def partsOfPiece : Text → List PathPart
  | [] => []
  | ['.'] => []
  | ['.', '.'] => [.parent]
  | name => [.name name]

def parts (path : Text) : List PathPart :=
  let lead : List PathPart :=
    if isAbsolute path then [.root]
    else if (pieces path).head? = some ['.'] then [.current]
    else []
  lead ++ (pieces path).flatMap partsOfPiece

/-- Follows `path` from `base`. An absolute path starts anew, and then `base` does not matter. -/
def join (base path : Text) : Text :=
  if isAbsolute path then path
  else if base.isEmpty || base.getLast? == some '/' then base ++ path
  else base ++ '/' :: path

/-- A path without detours: the names from the root or from an unknown place. It has no dots
left. -/
structure Normal where
  absolute : Bool
  names : List Text
deriving DecidableEq, Repr

namespace Normal

def start : Normal := ⟨false, []⟩

/-- Goes on with one part. Two dots take the last name away, if there is one, and never lead above
the start. -/
def push (place : Normal) : PathPart → Normal
  | .root => ⟨true, []⟩
  | .current => place
  | .parent => { place with names := place.names.dropLast }
  | .name name => { place with names := place.names ++ [name] }

def ofPath (path : Text) : Normal :=
  (parts path).foldl push start

def text (place : Normal) : Text :=
  let relative := ['/'].intercalate place.names
  if place.absolute then '/' :: relative else relative

end Normal

def normalize (path : Text) : Text :=
  (Normal.ofPath path).text

end FilePath

end Stencil
