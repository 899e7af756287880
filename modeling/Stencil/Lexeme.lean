import Stencil.Text

/-!
# Brace lexemes

A source is read from left to right into escaped braces, pairs of equal braces and single
characters. The reading does not depend on whether a substitution is open, and writing the
lexemes one after another gives the source again.
-/
namespace Stencil

inductive Brace
  | left
  | right
deriving DecidableEq, Repr

def Brace.char : Brace → Char
  | .left => '{'
  | .right => '}'

inductive Lexeme
  /-- A brace after a backslash, which stands for itself. -/
  | escaped (brace : Brace)
  /-- Two left braces, which open a substitution. -/
  | opening
  /-- Two right braces, which close a substitution. -/
  | closing
  | plain (c : Char)
deriving DecidableEq, Repr

namespace Lexeme

def text : Lexeme → Text
  | .escaped b => ['\\', b.char]
  | .opening => ['{', '{']
  | .closing => ['}', '}']
  | .plain c => [c]

def readAll : Text → List Lexeme
  | '\\' :: '{' :: rest => .escaped .left :: readAll rest
  | '\\' :: '}' :: rest => .escaped .right :: readAll rest
  | '{' :: '{' :: rest => .opening :: readAll rest
  | '}' :: '}' :: rest => .closing :: readAll rest
  | c :: rest => .plain c :: readAll rest
  | [] => []

def write (lexemes : List Lexeme) : Text :=
  lexemes.flatMap text

@[simp] theorem write_nil : write [] = [] := rfl

@[simp] theorem write_cons (l : Lexeme) (ls : List Lexeme) :
    write (l :: ls) = l.text ++ write ls := rfl

@[simp] theorem write_append (ls ms : List Lexeme) : write (ls ++ ms) = write ls ++ write ms := by
  simp [write]

theorem write_readAll (t : Text) : write (readAll t) = t := by
  fun_induction readAll t <;> simp_all [text, Brace.char]

theorem length_write_cons (l : Lexeme) (ls : List Lexeme) :
    (write ls).length < (write (l :: ls)).length := by
  have h : 0 < l.text.length := by cases l <;> simp [text]
  rw [write_cons, List.length_append]
  omega

/-- The lexemes up to the closing braces that match braces already open, and those after them.
`depth` counts the pairs that were opened since. -/
def closeBody : Nat → List Lexeme → Option (List Lexeme × List Lexeme)
  | _, [] => none
  | 0, .closing :: rest => some ([], rest)
  | depth + 1, .closing :: rest =>
    (closeBody depth rest).map fun (body, after) => (.closing :: body, after)
  | depth, .opening :: rest =>
    (closeBody (depth + 1) rest).map fun (body, after) => (.opening :: body, after)
  | depth, l :: rest =>
    (closeBody depth rest).map fun (body, after) => (l :: body, after)

theorem eq_append_of_closeBody {depth : Nat} {ls body after : List Lexeme}
    (h : closeBody depth ls = some (body, after)) : ls = body ++ .closing :: after := by
  fun_induction closeBody depth ls generalizing body after with
  | case1 => simp at h
  | case2 rest => simp_all
  | case3 depth rest ih | case4 depth rest ih | case5 depth l rest _ _ _ ih =>
    obtain ⟨⟨b, a⟩, hb, he⟩ := Option.map_eq_some_iff.1 h
    cases he
    simp [ih hb]

/-- The run of plain characters at the start, and what follows it. A run is told as one literal. -/
def plainRun : List Lexeme → Text × List Lexeme
  | .plain c :: rest =>
    let (run, after) := plainRun rest
    (c :: run, after)
  | ls => ([], ls)

theorem write_plainRun (ls : List Lexeme) :
    (plainRun ls).1 ++ write (plainRun ls).2 = write ls := by
  fun_induction plainRun ls with
  | case1 c rest run after h ih =>
    rw [h] at ih
    simp [text, ← ih]
  | case2 => simp

theorem length_plainRun_le (ls : List Lexeme) : (plainRun ls).2.length ≤ ls.length := by
  fun_induction plainRun ls with
  | case1 c rest run after h ih =>
    rw [h] at ih
    exact Nat.le_succ_of_le ih
  | case2 => exact Nat.le_refl _

end Lexeme

end Stencil
