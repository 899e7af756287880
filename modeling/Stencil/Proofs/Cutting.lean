import Stencil.Compile
import Stencil.Proofs.Balance

/-!
# Cutting a source, piece by piece

The tokens of a source merge runs of plain characters, so that they do not follow the lexemes one
by one. Its outline does: here is what each lexeme adds to the outline of the lexemes after it.
From this follows the outline of two sources that are put together, and that of a source in which
a body stands between two plain texts. A source that compiles can be cut to its end.
-/
namespace Stencil.Outline

open Lexeme

/-- The outline of some lexemes that start at byte `start`, with the literal before it. -/
def ofLexemes (start : Nat) (ls : List Lexeme) : Text × Outline :=
  ofTokens (Scan.ofLexemes start ls).failure (Scan.ofLexemes start ls).tokens

theorem ofSource_eq (start : Nat) (source : Text) :
    ofSource start source = ofLexemes start (readAll source) := rfl

/-- Whether some lexemes can be cut to their end, that is without a brace that has no partner. -/
def Whole (start : Nat) (ls : List Lexeme) : Prop :=
  (Scan.ofLexemes start ls).failure = none

/-! ### One lexeme -/

@[simp] theorem ofLexemes_nil (start : Nat) : ofLexemes start [] = ([], .done) := by
  simp [ofLexemes, Scan.ofLexemes, ofTokens]

theorem ofLexemes_escaped (start : Nat) (b : Brace) (ls : List Lexeme) :
    ofLexemes start (.escaped b :: ls) =
      (b.char :: (ofLexemes (start + 2) ls).1, (ofLexemes (start + 2) ls).2) := by
  simp [ofLexemes, Scan.ofLexemes, ofTokens]

theorem whole_escaped {start : Nat} {b : Brace} {ls : List Lexeme} :
    Whole start (.escaped b :: ls) ↔ Whole (start + 2) ls := by
  simp [Whole, Scan.ofLexemes]

theorem ofLexemes_opening {ls body after : List Lexeme} (h : closeBody 0 ls = some (body, after))
    (start : Nat) :
    ofLexemes start (.opening :: ls) =
      ([], .body (write body) start (ofLexemes (start + Text.bytes (write body) + 4) after).1
        (ofLexemes (start + Text.bytes (write body) + 4) after).2) := by
  unfold ofLexemes
  rw [Scan.ofLexemes]
  split <;> simp_all [ofTokens]

theorem whole_opening {ls body after : List Lexeme} (h : closeBody 0 ls = some (body, after))
    {start : Nat} :
    Whole start (.opening :: ls) ↔ Whole (start + Text.bytes (write body) + 4) after := by
  unfold Whole
  rw [Scan.ofLexemes]
  split <;> simp_all

/-- A plain character joins the run that begins after it, or makes a run of its own. Before a stray
closing brace it is lost with that run. -/
theorem scan_plain (start : Nat) (c : Char) (ls : List Lexeme) :
    Scan.ofLexemes start (.plain c :: ls) =
      if (plainRun ls).2.head? = some .closing then
        ⟨[], some ⟨.unopened, start + c.utf8Size + Text.bytes (plainRun ls).1⟩⟩
      else
        (Scan.ofLexemes (start + c.utf8Size + Text.bytes (plainRun ls).1) (plainRun ls).2).cons
          (.literal (c :: (plainRun ls).1)) := by
  rw [Scan.ofLexemes]
  simp only [Text.bytes_cons, Nat.add_assoc]

theorem whole_plain {start : Nat} {c : Char} {ls : List Lexeme} :
    Whole start (.plain c :: ls) ↔ Whole (start + c.utf8Size) ls := by
  unfold Whole
  rw [scan_plain]
  cases ls with
  | nil => simp [plainRun]
  | cons l ls =>
    cases l with
    | plain d =>
      rw [scan_plain]
      simp only [plainRun, Text.bytes_cons, Nat.add_assoc]
      split <;> simp
    | closing => simp [plainRun, Scan.ofLexemes]
    | escaped b => simp [plainRun]
    | opening => simp [plainRun]

theorem ofLexemes_plain {start : Nat} {c : Char} {ls : List Lexeme}
    (h : Whole (start + c.utf8Size) ls) :
    ofLexemes start (.plain c :: ls) =
      (c :: (ofLexemes (start + c.utf8Size) ls).1, (ofLexemes (start + c.utf8Size) ls).2) := by
  unfold ofLexemes
  unfold Whole at h
  rw [scan_plain]
  cases ls with
  | nil => simp [plainRun, Scan.ofLexemes, ofTokens]
  | cons l ls =>
    cases l with
    | plain d =>
      rw [scan_plain] at h ⊢
      simp only [plainRun, Text.bytes_cons, Nat.add_assoc] at h ⊢
      split
      · simp_all
      · simp [ofTokens]
    | closing => simp [Scan.ofLexemes] at h
    | escaped b => simp [plainRun, ofTokens]
    | opening => simp [plainRun, ofTokens]

/-- Induction over what can be cut to its end, with one case for each lexeme that can come first. A
closing brace cannot. -/
@[elab_as_elim]
theorem Whole.induction {motive : (start : Nat) → (ls : List Lexeme) → Whole start ls → Prop}
    (nil : ∀ start h, motive start [] h)
    (escaped : ∀ start b ls h h', motive (start + 2) ls h → motive start (.escaped b :: ls) h')
    (plain : ∀ start c ls h h',
      motive (start + c.utf8Size) ls h → motive start (.plain c :: ls) h')
    (opening : ∀ start ls body after h h', closeBody 0 ls = some (body, after) →
      motive (start + Text.bytes (write body) + 4) after h → motive start (.opening :: ls) h')
    (start : Nat) (ls : List Lexeme) (h : Whole start ls) : motive start ls h := by
  match ls with
  | [] => exact nil start h
  | .escaped b :: ls =>
    have hls := whole_escaped.1 h
    exact escaped start b ls hls h (induction nil escaped plain opening _ ls hls)
  | .plain c :: ls =>
    have hls := whole_plain.1 h
    exact plain start c ls hls h (induction nil escaped plain opening _ ls hls)
  | .closing :: ls => simp [Whole, Scan.ofLexemes] at h
  | .opening :: ls =>
    cases hclose : closeBody 0 ls with
    | none =>
      unfold Whole at h
      rw [Scan.ofLexemes] at h
      split at h <;> simp_all
    | some pair =>
      obtain ⟨inner, after⟩ := pair
      have hafter := (whole_opening hclose).1 h
      have : after.length < ls.length := by
        rw [eq_append_of_closeBody hclose, List.length_append, List.length_cons]
        omega
      exact opening start ls inner after hafter h hclose
        (induction nil escaped plain opening _ after hafter)
termination_by ls.length

/-! ### Texts that are put together -/

/-- Puts an outline after a literal and the outline that follows it. The literals that meet become
one, and no substitution changes. -/
def append (literal : Text) : Outline → Text × Outline → Text × Outline
  | .done, tail => (literal ++ tail.1, tail.2)
  | .broken error, _ => (literal, .broken error)
  | .body raw start next rest, tail =>
    (literal, .body raw start (append next rest tail).1 (append next rest tail).2)

theorem append_cons (c : Char) (literal : Text) (outline : Outline) (tail : Text × Outline) :
    append (c :: literal) outline tail =
      (c :: (append literal outline tail).1, (append literal outline tail).2) := by
  cases outline <;> simp [append]

theorem closeBody_append_right {ls body after : List Lexeme} {depth : Nat}
    (h : closeBody depth ls = some (body, after)) (ms : List Lexeme) :
    closeBody depth (ls ++ ms) = some (body, after ++ ms) := by
  rw [eq_append_of_closeBody h, List.append_assoc, closeBody_append (openAfter_of_closeBody h)]
  simp [closeBody]

theorem ofLexemes_append {start : Nat} {ls ms : List Lexeme} (hls : Whole start ls)
    (hms : Whole (start + Text.bytes (write ls)) ms) :
    Whole start (ls ++ ms) ∧ ofLexemes start (ls ++ ms) =
      append (ofLexemes start ls).1 (ofLexemes start ls).2
        (ofLexemes (start + Text.bytes (write ls)) ms) := by
  induction start, ls, hls using Whole.induction with
  | nil start h =>
    refine ⟨hms, ?_⟩
    simp [append]
  | escaped start b ls h h' ih =>
    have hbytes : start + Text.bytes (write (.escaped b :: ls)) =
        start + 2 + Text.bytes (write ls) := by
      simp [Nat.add_assoc]
    rw [hbytes] at hms ⊢
    obtain ⟨hwhole, hcut⟩ := ih hms
    refine ⟨whole_escaped.2 hwhole, ?_⟩
    rw [List.cons_append, ofLexemes_escaped, ofLexemes_escaped, hcut, append_cons]
  | plain start c ls h h' ih =>
    have hbytes : start + Text.bytes (write (.plain c :: ls)) =
        start + c.utf8Size + Text.bytes (write ls) := by
      simp [Nat.add_assoc]
    rw [hbytes] at hms ⊢
    obtain ⟨hwhole, hcut⟩ := ih hms
    refine ⟨whole_plain.2 hwhole, ?_⟩
    rw [List.cons_append, ofLexemes_plain hwhole, ofLexemes_plain h, hcut, append_cons]
  | opening start ls inner after h h' hclose ih =>
    have hbytes : start + Text.bytes (write (.opening :: ls)) =
        start + Text.bytes (write inner) + 4 + Text.bytes (write after) := by
      simp only [eq_append_of_closeBody hclose, write_cons, write_append, Text.bytes_append,
        bytes_text_opening, bytes_text_closing]
      omega
    rw [hbytes] at hms ⊢
    obtain ⟨hwhole, hcut⟩ := ih hms
    have hclose' := closeBody_append_right hclose ms
    refine ⟨(whole_opening hclose').2 hwhole, ?_⟩
    rw [List.cons_append, ofLexemes_opening hclose', ofLexemes_opening hclose, hcut]
    rfl

/-- The outline of two sources that are put together, when each of them can be cut to its end and no
braces pair up at the seam. -/
theorem ofSource_append {start : Nat} {x y : Text} (hseam : Seam x y)
    (hx : Whole start (readAll x)) (hy : Whole (start + Text.bytes x) (readAll y)) :
    ofSource start (x ++ y) =
      append (ofSource start x).1 (ofSource start x).2 (ofSource (start + Text.bytes x) y) := by
  have hy' : Whole (start + Text.bytes (write (readAll x))) (readAll y) := by
    rwa [write_readAll]
  rw [ofSource_eq, readAll_append hseam, (ofLexemes_append hx hy').2, write_readAll]
  rfl

/-! ### One body between plain texts -/

theorem ofSource_plain {t : Text} (h : t.Braceless) (start : Nat) :
    ofSource start t = (t, .done) ∧ Whole start (readAll t) := by
  rw [ofSource_eq, readAll_of_braceless h]
  clear h
  induction t generalizing start with
  | nil => exact ⟨ofLexemes_nil start, by simp [Whole, Scan.ofLexemes]⟩
  | cons c t ih =>
    obtain ⟨hcut, hwhole⟩ := ih (start + c.utf8Size)
    refine ⟨?_, whole_plain.2 hwhole⟩
    rw [List.map_cons, ofLexemes_plain hwhole, hcut]

theorem readAll_enclose (raw rest : Text) :
    readAll (enclose raw ++ rest) = .opening :: readAll (raw ++ '}' :: '}' :: rest) := by
  simp [enclose, readAll]

theorem ofSource_enclose {raw : Text} (h : raw.IsBody) (start : Nat) (rest : Text) :
    ofSource start (enclose raw ++ rest) =
      ([], .body raw start (ofSource (start + Text.bytes raw + 4) rest).1
        (ofSource (start + Text.bytes raw + 4) rest).2) := by
  rw [ofSource_eq, readAll_enclose, ofLexemes_opening (h.closeBody rest), write_readAll]
  rfl

theorem whole_enclose {raw : Text} (h : raw.IsBody) {start : Nat} {rest : Text} :
    Whole start (readAll (enclose raw ++ rest)) ↔
      Whole (start + Text.bytes raw + 4) (readAll rest) := by
  rw [readAll_enclose, whole_opening (h.closeBody rest), write_readAll]

/-- The outline of a source whose only substitution has plain text around it: a literal, the body
and a literal. -/
theorem ofSource_between {raw before after : Text} (h : raw.IsBody) (start : Nat)
    (hbefore : before.Braceless) (hlast : before.getLast? ≠ some '\\') (hafter : after.Braceless) :
    ofSource start (before ++ (enclose raw ++ after)) =
      (before, .body raw (start + Text.bytes before) after .done) := by
  have hstart := ofSource_plain hbefore start
  have hend := ofSource_plain hafter
  rw [ofSource_append (Text.seam_of_braceless hbefore hlast _) hstart.2
    ((whole_enclose h).2 (hend _).2), hstart.1, ofSource_enclose h, (hend _).1]
  simp [append]

/-- A source that is cut into a single body is that body between its braces, so that the body can
also stand elsewhere. -/
theorem isBody_of_ofSource {raw literal : Text} {start : Nat} {rest : Outline}
    (h : ofSource start (enclose raw) = ([], .body raw start literal rest)) : raw.IsBody := by
  have hread := readAll_enclose raw []
  rw [List.append_nil] at hread
  rw [ofSource_eq, hread] at h
  cases hclose : closeBody 0 (readAll (raw ++ ['}', '}'])) with
  | none =>
    rw [ofLexemes, Scan.ofLexemes] at h
    split at h <;> simp_all [ofTokens]
  | some pair =>
    obtain ⟨inner, after⟩ := pair
    rw [ofLexemes_opening hclose] at h
    have hinner : write inner = raw := by
      simp only [Prod.mk.injEq, Outline.body.injEq] at h
      exact h.2.1
    have hafter : after = [] := by
      have hwrite := write_readAll (raw ++ ['}', '}'])
      rw [eq_append_of_closeBody hclose, write_append, hinner, write_cons] at hwrite
      have hempty : write after = [] := by simpa [text] using hwrite
      cases after with
      | nil => rfl
      | cons l ls =>
        have hlength := length_write_cons l ls
        simp [hempty] at hlength
    rw [hafter] at hclose
    exact Text.isBody_of_closeBody hclose hinner

/-! ### Sources that compile -/

/-- There is no error at the end of the outline, which is all that cutting can find wrong. -/
def Unbroken : Outline → Prop
  | .done => True
  | .broken _ => False
  | .body _ _ _ rest => rest.Unbroken

theorem failure_of_unbroken {failure : Option SyntaxError} {tokens : List Token}
    (h : (ofTokens failure tokens).2.Unbroken) : failure = none := by
  induction tokens with
  | nil =>
    cases failure with
    | none => rfl
    | some error => cases h
  | cons token tokens ih => cases token <;> exact ih h

end Stencil.Outline

namespace Stencil

theorem unbroken_of_compileOutline {atStart : Bool} {literal : Text} {outline : Outline}
    {body : Body} (h : (compileOutline atStart literal outline).result = .ok body) :
    outline.Unbroken := by
  match outline with
  | .done => trivial
  | .broken error =>
    rw [compileOutline] at h
    cases h
  | .body raw start next rest =>
    rcases compileOutline_body_eq_ok.1 h with ⟨-, after, hafter, -⟩ |
      ⟨clauses, action, after, -, -, -, hafter, -⟩
    · rw [Outline.Unbroken]
      exact unbroken_of_compileOutline hafter
    · rw [Outline.Unbroken]
      exact unbroken_of_compileOutline hafter

/-- A source that compiles can be cut to its end, as an error at the end would have been the
result. -/
theorem whole_of_compileSource {start : Nat} {source : Text} {body : Body}
    (h : (compileSource start source).result = .ok body) :
    Outline.Whole start (Lexeme.readAll source) := by
  rw [compileSource] at h
  exact Outline.failure_of_unbroken (unbroken_of_compileOutline h)

end Stencil
