import Stencil.Lexeme
import Stencil.SyntaxError

/-!
# Tokens

A source is cut into literal text, braces that were escaped, and the raw bodies of its
outermost substitutions. Braces inside a body are only counted, so that a body that holds
substitutions of its own stays whole. The cut stops at the first brace pair without a
partner and keeps the tokens before it.
-/
namespace Stencil

inductive Token
  /-- A run of characters that stand for themselves, up to the next brace that means something. -/
  | literal (run : Text)
  /-- A brace that was escaped, which is literal text of its own. -/
  | brace (b : Brace)
  /-- What stands between the braces of a substitution that opens at byte `start`, not read any
  further. -/
  | body (raw : Text) (start : Nat)
deriving DecidableEq, Repr

/-- The tokens of a source up to its end or to the first error. Those before the error are kept. -/
structure Scan where
  tokens : List Token
  failure : Option SyntaxError
deriving DecidableEq, Repr

namespace Scan

def cons (token : Token) (scan : Scan) : Scan :=
  ⟨token :: scan.tokens, scan.failure⟩

@[simp] theorem tokens_cons (token : Token) (scan : Scan) :
    (cons token scan).tokens = token :: scan.tokens := rfl

@[simp] theorem failure_cons (token : Token) (scan : Scan) :
    (cons token scan).failure = scan.failure := rfl

/-- Cuts the lexemes that start at byte `start`. A literal run that ends at stray closing
braces is not a token. -/
def ofLexemes (start : Nat) (lexemes : List Lexeme) : Scan :=
  match lexemes with
  | [] => ⟨[], none⟩
  | .escaped b :: rest => (ofLexemes (start + 2) rest).cons (.brace b)
  | .closing :: _ => ⟨[], some ⟨.unopened, start⟩⟩
  | .opening :: rest =>
    match h : Lexeme.closeBody 0 rest with
    | none => ⟨[], some ⟨.unclosed, start⟩⟩
    | some (body, after) =>
      have : after.length < rest.length + 1 := by
        simp [Lexeme.eq_append_of_closeBody h]
        omega
      let raw := Lexeme.write body
      (ofLexemes (start + raw.bytes + 4) after).cons (.body raw start)
  | .plain c :: rest =>
    have : (Lexeme.plainRun rest).2.length < rest.length + 1 :=
      Nat.lt_succ_of_le (Lexeme.length_plainRun_le rest)
    let run := c :: (Lexeme.plainRun rest).1
    let after := (Lexeme.plainRun rest).2
    if after.head? = some .closing then
      ⟨[], some ⟨.unopened, start + Text.bytes run⟩⟩
    else
      (ofLexemes (start + Text.bytes run) after).cons (.literal run)
termination_by lexemes.length

/-- The tokens of `source`, whose first character is at byte `start` of the whole template. All
offsets count from there. -/
def ofSource (start : Nat) (source : Text) : Scan :=
  ofLexemes start (Lexeme.readAll source)

/-- The literal text of some tokens, with the escapes resolved and the bodies left out. -/
def literalText : List Token → Text
  | [] => []
  | .literal run :: rest => run ++ literalText rest
  | .brace b :: rest => b.char :: literalText rest
  | .body _ _ :: rest => literalText rest

end Scan

end Stencil
