import Stencil.Blank

/-!
# Function paths

The path of a function is names with two colons between, in which a name may have arguments
in angle brackets. A path that starts with a bracket qualifies a type: the trait that the
type is seen as stands for the whole bracket, and without a trait nothing does.
-/
namespace Stencil.FunctionPath

def opens (c : Char) : Bool :=
  ['<', '(', '[', '{'].contains c

/-- Whether a bracket closes. The end of an arrow does not, as it has no bracket that opens. -/
def closes (previous c : Char) : Bool :=
  [')', ']', '}'].contains c || (c == '>' && previous != '-')

/-- Splits in front of the first place outside of brackets where `stop` holds of the character
before it and of the text from there on. -/
def splitOutside (stop : Char → Text → Bool) (previous : Char) (depth : Nat) : Text → Text × Text
  | [] => ([], [])
  | c :: rest =>
    if depth = 0 ∧ stop previous (c :: rest) then ([], c :: rest)
    else
      let inner := if opens c then depth + 1 else if closes previous c then depth - 1 else depth
      let (front, back) := splitOutside stop c inner rest
      (c :: front, back)

def isNameChar (c : Char) : Bool :=
  c.isAlphanum || c == '_' || c == '#' || (0x80 ≤ c.toNat && !isBlank c)

/-- Whether a text goes on with the word that stands between a type and its trait, and not with a
name that begins alike. -/
def startsCast (previous : Char) (t : Text) : Bool :=
  ['a', 's'].isPrefixOf t && !isNameChar previous && !(t.drop 2).head?.any isNameChar

/-- The trait of a qualification, with the blanks around it, or nothing when there is none. -/
def castTarget (qualification : Text) : Text :=
  (splitOutside startsCast ' ' 0 qualification).2.drop 2

/-- Puts the trait of a qualification in its place, so that the type before it gets lost. -/
def unqualify (path : Text) : Text :=
  match path.trimStart with
  | '<' :: rest =>
    let (qualification, after) :=
      splitOutside (fun previous t => t.head?.any (closes previous)) ' ' 0 rest
    castTarget qualification ++ after.drop 1
  | rest => rest

/-- The path as it is written without a qualification and without blanks, as the tokens of it are
put together again. -/
def plain (path : Text) : Text :=
  (unqualify path).filter fun c => !isBlank c

end Stencil.FunctionPath
