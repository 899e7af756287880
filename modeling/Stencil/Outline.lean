import Stencil.Token

/-!
# Outlines

An outline is what follows a literal in a source: its end, an error, or the raw body of a
substitution with the literal and the outline after it. Adjacent literal pieces are one
literal here, so an outline alternates between literals and bodies.
-/
namespace Stencil

inductive Outline
  | done
  | broken (error : SyntaxError)
  | body (raw : Text) (start : Nat) (literal : Text) (rest : Outline)
deriving DecidableEq, Repr

namespace Outline

/-- The first literal of a scan and what follows it. Runs and escaped braces next to each other are
one literal. -/
def ofTokens (failure : Option SyntaxError) : List Token → Text × Outline
  | [] =>
    match failure with
    | none => ([], .done)
    | some error => ([], .broken error)
  | .literal run :: rest =>
    let (literal, outline) := ofTokens failure rest
    (run ++ literal, outline)
  | .brace b :: rest =>
    let (literal, outline) := ofTokens failure rest
    (b.char :: literal, outline)
  | .body raw start :: rest =>
    let (literal, outline) := ofTokens failure rest
    ([], .body raw start literal outline)

def ofSource (start : Nat) (source : Text) : Text × Outline :=
  let scan := Scan.ofSource start source
  ofTokens scan.failure scan.tokens

/-- The characters of all bodies, with one more for each of them. Recursion over outlines and inline
templates goes down in it. -/
def weight : Outline → Nat
  | .done => 0
  | .broken _ => 0
  | .body raw _ _ rest => raw.length + 1 + weight rest

end Outline

/-- The characters of all bodies, with one more for each of them, before the tokens are put together
to an outline. -/
def Token.weight : List Token → Nat
  | [] => 0
  | .literal _ :: rest => weight rest
  | .brace _ :: rest => weight rest
  | .body raw _ :: rest => raw.length + 1 + weight rest

theorem Outline.weight_ofTokens (failure : Option SyntaxError) (tokens : List Token) :
    (ofTokens failure tokens).2.weight = Token.weight tokens := by
  induction tokens with
  | nil => cases failure <;> rfl
  | cons token rest ih => cases token <;> simp [ofTokens, weight, Token.weight, ih]

theorem Scan.weight_ofLexemes_le (start : Nat) (lexemes : List Lexeme) :
    Token.weight (ofLexemes start lexemes).tokens ≤ (Lexeme.write lexemes).length := by
  fun_induction ofLexemes start lexemes with
  | case1 | case3 | case4 | case6 => simp [Token.weight]
  | case2 start b rest ih =>
    simp only [tokens_cons, Token.weight, Lexeme.write_cons, List.length_append]
    omega
  | case5 start rest body after h _ raw ih =>
    simp only [tokens_cons, Token.weight, Lexeme.write_cons,
      Lexeme.eq_append_of_closeBody h, Lexeme.write_append, List.length_append, Lexeme.text,
      List.length_cons, List.length_nil, raw] at ih ⊢
    omega
  | case7 start c rest _ run after _ ih =>
    have hrun := congrArg List.length (Lexeme.write_plainRun rest)
    simp only [List.length_append] at hrun
    simp only [tokens_cons, Token.weight, Lexeme.write_cons, List.length_append, after] at ih ⊢
    omega

/-- The bodies of a source are shorter than the source, so that compiling the inline templates in
them comes to an end. -/
theorem Outline.weight_ofSource_le (start : Nat) (source : Text) :
    (ofSource start source).2.weight ≤ source.length := by
  have h := Scan.weight_ofLexemes_le start (Lexeme.readAll source)
  rwa [Lexeme.write_readAll, ← weight_ofTokens] at h

end Stencil
