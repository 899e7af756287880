import Stencil.Token
import Mathlib.Tactic.Common

/-!
# Reading across a seam, and balanced braces

Two texts that are put together are read like each of them alone, unless the last character of
the first one pairs with the first character of the second one. The number of substitutions that
are open after some lexemes then decides where a body ends: a text that leaves as many open as
there were before, and never fewer on the way, is passed over as a whole.
-/
namespace Stencil

/-- A text between the braces of a substitution, as it stands in a source. -/
def enclose (raw : Text) : Text :=
  '{' :: '{' :: (raw ++ ['}', '}'])

@[simp] theorem bytes_enclose (raw : Text) : Text.bytes (enclose raw) = Text.bytes raw + 4 := by
  have hl : Char.utf8Size '{' = 1 := rfl
  have hr : Char.utf8Size '}' = 1 := rfl
  simp only [enclose, Text.bytes_cons, Text.bytes_append, Text.bytes_nil, hl, hr]
  omega

/-- No braces at all, so that every character is a lexeme of its own, and a backslash escapes
nothing. -/
def Text.Braceless (t : Text) : Prop :=
  ∀ c ∈ t, c ≠ '{' ∧ c ≠ '}'

instance (t : Text) : Decidable t.Braceless :=
  List.decidableBAll (fun c => c ≠ '{' ∧ c ≠ '}') t

/-- None of these characters occurs in the text. -/
def Text.Avoids (t : Text) (chars : List Char) : Prop :=
  ∀ c ∈ t, c ∉ chars

instance (t : Text) (chars : List Char) : Decidable (t.Avoids chars) :=
  List.decidableBAll (fun c => c ∉ chars) t

namespace Text.Avoids

variable {s t : Text} {chars : List Char}

theorem ne (h : t.Avoids chars) {c d : Char} (hc : c ∈ t) (hd : d ∈ chars) : c ≠ d := by
  rintro rfl
  exact h c hc hd

theorem append (hs : s.Avoids chars) (ht : t.Avoids chars) : Text.Avoids (s ++ t) chars := by
  intro c hc
  rcases List.mem_append.1 hc with hc | hc
  · exact hs c hc
  · exact ht c hc

theorem mono (h : t.Avoids chars) {fewer : List Char} (hsub : fewer ⊆ chars) : t.Avoids fewer :=
  fun c hc hfewer => h c hc (hsub hfewer)

theorem braceless (h : t.Avoids chars) (hleft : '{' ∈ chars) (hright : '}' ∈ chars) :
    t.Braceless :=
  fun _ hc => ⟨h.ne hc hleft, h.ne hc hright⟩

theorem getLast?_ne (h : t.Avoids chars) {d : Char} (hd : d ∈ chars) : t.getLast? ≠ some d :=
  fun hlast => h d (List.mem_of_getLast? hlast) hd

end Text.Avoids

namespace Lexeme

@[simp] theorem bytes_text_escaped (b : Brace) : Text.bytes (text (.escaped b)) = 2 := by
  cases b <;> rfl

@[simp] theorem bytes_text_opening : Text.bytes (text .opening) = 2 := rfl

@[simp] theorem bytes_text_closing : Text.bytes (text .closing) = 2 := rfl

@[simp] theorem bytes_text_plain (c : Char) : Text.bytes (text (.plain c)) = c.utf8Size := rfl

/-- Whether two characters next to each other are one lexeme: a backslash with a brace, or two equal
braces. -/
def pairs (c d : Char) : Bool :=
  (c == '\\' && (d == '{' || d == '}')) || (c == '{' && d == '{') || (c == '}' && d == '}')

/-- The first text does not end in a character that pairs with the start of the second one. A
character that already belongs to a lexeme of two is not in the way. -/
def Seam (x y : Text) : Prop :=
  ∀ c d, (readAll x).getLast? = some (.plain c) → y.head? = some d → pairs c d = false

theorem readAll_cons {c : Char} {t : Text} (h : ∀ d, t.head? = some d → pairs c d = false) :
    readAll (c :: t) = .plain c :: readAll t := by
  rw [readAll]
  all_goals
    rintro rest rfl rfl
    exact absurd (h _ rfl) (by decide)

theorem Seam.of_readAll {x rest y : Text} {l : Lexeme} (hread : readAll x = l :: readAll rest)
    (h : Seam x y) : Seam rest y := by
  intro c d hc hd
  refine h c d ?_ hd
  rw [hread, List.getLast?_cons, hc]
  rfl

/-- Reading goes across a seam: the lexemes of two texts are those of the first and then those of
the second. -/
theorem readAll_append {x y : Text} (h : Seam x y) : readAll (x ++ y) = readAll x ++ readAll y := by
  fun_induction readAll x with
  | case1 rest ih | case2 rest ih | case3 rest ih | case4 rest ih =>
    have hrest : Seam rest y := h.of_readAll rfl
    simp only [List.cons_append, readAll, ih hrest]
  | case5 c rest h1 h2 h3 h4 ih =>
    have hread : readAll (c :: rest) = .plain c :: readAll rest := by
      rw [readAll] <;> assumption
    have hhead : ∀ d, (rest ++ y).head? = some d → pairs c d = false := by
      intro d hd
      cases rest with
      | nil => exact h c d (by rw [hread]; rfl) hd
      | cons e more =>
        obtain rfl : e = d := by simpa using hd
        simp only [List.cons.injEq] at h1 h2 h3 h4
        by_cases hc : c = '\\' <;> by_cases hl : c = '{' <;> by_cases hr : c = '}' <;>
          simp_all [pairs]
    rw [List.cons_append, readAll_cons hhead, ih (h.of_readAll hread), List.cons_append]
  | case6 => rfl

theorem seam_of_head {x y : Text} (h : ∀ d, y.head? = some d → d ≠ '{' ∧ d ≠ '}') : Seam x y := by
  intro c d _ hd
  obtain ⟨hl, hr⟩ := h d hd
  simp [pairs, hl, hr]

theorem seam_of_getLast {x y : Text} (h : ∀ c, x.getLast? = some c → c ≠ '\\' ∧ c ≠ '{' ∧ c ≠ '}') :
    Seam x y := by
  intro c d hc hd
  have hx : x.getLast? = some c := by
    obtain ⟨front, hfront⟩ := List.getLast?_eq_some_iff.1 hc
    have hw := write_readAll x
    rw [hfront, write_append] at hw
    rw [← hw]
    simp [text]
  obtain ⟨hb, hl, hr⟩ := h c hx
  simp [pairs, hb, hl, hr]

theorem readAll_of_braceless {t : Text} (h : t.Braceless) : readAll t = t.map .plain := by
  induction t with
  | nil => rfl
  | cons c t ih =>
    have ht : Text.Braceless t := fun d hd => h d (List.mem_cons_of_mem c hd)
    have hhead : ∀ d, t.head? = some d → pairs c d = false := by
      intro d hd
      obtain ⟨hl, hr⟩ := ht d (List.mem_of_mem_head? hd)
      simp [pairs, hl, hr]
    rw [readAll_cons hhead, ih ht, List.map_cons]

/-- What was read first is read again from its own text, without the rest that came after it. -/
theorem readAll_write_of_append {x : Text} {ls ms : List Lexeme} (h : readAll x = ls ++ ms) :
    readAll (write ls) = ls := by
  fun_induction readAll x generalizing ls with
  | case1 rest ih | case2 rest ih | case3 rest ih | case4 rest ih =>
    cases ls with
    | nil => rfl
    | cons l ls =>
      obtain ⟨rfl, hrest⟩ := List.cons.inj h
      simp only [write_cons, text, Brace.char, List.cons_append, List.nil_append, readAll, ih hrest]
  | case5 c rest h1 h2 h3 h4 ih =>
    cases ls with
    | nil => rfl
    | cons l ls =>
      obtain ⟨rfl, hrest⟩ := List.cons.inj h
      have hsplit : rest = write ls ++ write ms := by
        have hw := write_readAll rest
        rwa [hrest, List.append_eq, write_append, eq_comm] at hw
      have hread : readAll (c :: write ls) = .plain c :: readAll (write ls) := by
        rw [readAll] <;> intro more hc hw <;> simp_all
      rw [write_cons, text, List.singleton_append, hread, ih hrest]
  | case6 =>
    obtain ⟨rfl, -⟩ := List.append_eq_nil_iff.1 h.symm
    rfl

/-! ### Counting what is open -/

/-- The number of substitutions that are open after some lexemes, when `depth` were open before,
unless closing braces come without a partner. -/
def openAfter : Nat → List Lexeme → Option Nat
  | depth, [] => some depth
  | 0, .closing :: _ => none
  | depth + 1, .closing :: rest => openAfter depth rest
  | depth, .opening :: rest => openAfter (depth + 1) rest
  | depth, .escaped _ :: rest => openAfter depth rest
  | depth, .plain _ :: rest => openAfter depth rest

theorem openAfter_append (depth : Nat) (ls ms : List Lexeme) :
    openAfter depth (ls ++ ms) = (openAfter depth ls).bind fun d => openAfter d ms := by
  fun_induction openAfter depth ls <;> simp_all [openAfter]

@[simp] theorem openAfter_plain (depth : Nat) (t : Text) :
    openAfter depth (t.map .plain) = some depth := by
  induction t with
  | nil => rfl
  | cons c t ih => exact ih

/-- More substitutions around do not matter: what a text leaves open is added to what was open
before it. -/
theorem openAfter_add {depth after : Nat} {ls : List Lexeme} (h : openAfter depth ls = some after)
    (more : Nat) : openAfter (depth + more) ls = some (after + more) := by
  fun_induction openAfter depth ls with
  | case1 => simp_all [openAfter]
  | case2 => simp at h
  | case3 depth rest ih | case4 depth rest ih =>
    have hdepth : depth + 1 + more = depth + more + 1 := by omega
    simpa only [openAfter, hdepth] using ih h
  | case5 depth b rest ih | case6 depth c rest ih => simpa only [openAfter] using ih h

theorem closeBody_append {depth after : Nat} {ls : List Lexeme}
    (h : openAfter depth ls = some after) (ms : List Lexeme) :
    closeBody depth (ls ++ ms) =
      (closeBody after ms).map fun (body, rest) => (ls ++ body, rest) := by
  fun_induction openAfter depth ls with
  | case1 depth =>
    obtain rfl : depth = after := by simpa using h
    simp
  | case2 => simp at h
  | case3 depth rest ih | case4 depth rest ih | case5 depth b rest ih | case6 depth c rest ih =>
    simp only [List.cons_append, closeBody, ih h, Option.map_map]
    rfl

theorem openAfter_of_closeBody {depth : Nat} {ls body after : List Lexeme}
    (h : closeBody depth ls = some (body, after)) : openAfter depth body = some 0 := by
  fun_induction closeBody depth ls generalizing body after with
  | case1 => simp at h
  | case2 rest => simp_all [openAfter]
  | case3 depth rest ih | case4 depth rest ih =>
    obtain ⟨⟨b, a⟩, hb, he⟩ := Option.map_eq_some_iff.1 h
    cases he
    exact ih hb
  | case5 depth l rest h1 h2 h3 ih =>
    obtain ⟨⟨b, a⟩, hb, he⟩ := Option.map_eq_some_iff.1 h
    cases he
    have hb' := ih hb
    cases l with
    | closing =>
      cases depth with
      | zero => exact absurd rfl (h1 rfl)
      | succ depth => exact absurd rfl (h2 depth rfl)
    | opening => exact absurd rfl h3
    | escaped b => simpa only [openAfter] using hb'
    | plain c => simpa only [openAfter] using hb'

theorem openAfter_plainRun (depth : Nat) (ls : List Lexeme) :
    openAfter depth (plainRun ls).2 = openAfter depth ls := by
  fun_induction plainRun ls with
  | case1 c rest run after h ih =>
    rw [h] at ih
    exact ih
  | case2 => rfl

/-- A source that is cut without an error leaves nothing open, and never closes what it did not
open. -/
theorem openAfter_of_ofLexemes {start : Nat} {ls : List Lexeme}
    (h : (Scan.ofLexemes start ls).failure = none) : openAfter 0 ls = some 0 := by
  fun_induction Scan.ofLexemes start ls with
  | case1 => rfl
  | case2 start b rest ih => exact ih h
  | case3 | case4 | case6 => simp at h
  | case5 start rest body after hclose _ raw ih =>
    have hbody := openAfter_add (openAfter_of_closeBody hclose) 1
    rw [eq_append_of_closeBody hclose, openAfter, openAfter_append, hbody]
    exact ih h
  | case7 start c rest _ run after _ ih =>
    rw [openAfter, ← openAfter_plainRun]
    exact ih h

end Lexeme

/-! ### Whole bodies -/

namespace Text

open Lexeme

theorem seam_of_braceless {x : Text} (h : x.Braceless) (hlast : x.getLast? ≠ some '\\') (y : Text) :
    Seam x y := by
  refine seam_of_getLast fun c hc => ⟨?_, h c (List.mem_of_getLast? hc)⟩
  rintro rfl
  exact hlast hc

/-- The text is a whole body: braces after it close it, and none inside of it do. So it can stand
between the braces of a substitution. -/
structure IsBody (raw : Text) : Prop where
  closes : readAll (raw ++ ['}', '}']) = readAll raw ++ [.closing]
  balanced : openAfter 0 (readAll raw) = some 0

theorem isBody_of_seam {raw : Text} (hseam : Seam raw ['}', '}'])
    (h : openAfter 0 (readAll raw) = some 0) : raw.IsBody :=
  ⟨readAll_append hseam, h⟩

theorem isBody_of_closeBody {raw : Text} {body : List Lexeme}
    (h : closeBody 0 (readAll (raw ++ ['}', '}'])) = some (body, [])) (hbody : write body = raw) :
    raw.IsBody := by
  have hread := eq_append_of_closeBody h
  have hraw : readAll raw = body := hbody ▸ readAll_write_of_append hread
  exact ⟨hraw ▸ hread, hraw ▸ openAfter_of_closeBody h⟩

theorem isBody_of_braceless {raw : Text} (h : raw.Braceless) (hlast : raw.getLast? ≠ some '\\') :
    raw.IsBody :=
  isBody_of_seam (seam_of_braceless h hlast _) (by rw [readAll_of_braceless h, openAfter_plain])

theorem readAll_braceless_append {x : Text} (hx : x.Braceless) (hlast : x.getLast? ≠ some '\\')
    (y : Text) : readAll (x ++ y) = x.map .plain ++ readAll y := by
  rw [Lexeme.readAll_append (seam_of_braceless hx hlast y), readAll_of_braceless hx]

/-- Plain text before a body makes no difference, unless it ends in a backslash that would escape a
brace. -/
theorem isBody_append_iff {x y : Text} (hx : x.Braceless) (hlast : x.getLast? ≠ some '\\') :
    IsBody (x ++ y) ↔ IsBody y := by
  have hread := readAll_braceless_append hx hlast
  have hopen : openAfter 0 (readAll (x ++ y)) = openAfter 0 (readAll y) := by
    rw [hread, openAfter_append, openAfter_plain]
    rfl
  have hcloses : readAll (x ++ y ++ ['}', '}']) = readAll (x ++ y) ++ [.closing] ↔
      readAll (y ++ ['}', '}']) = readAll y ++ [.closing] := by
    rw [List.append_assoc, hread, hread, List.append_assoc, List.append_cancel_left_eq]
  constructor
  · exact fun h => ⟨hcloses.1 h.closes, hopen ▸ h.balanced⟩
  · exact fun h => ⟨hcloses.2 h.closes, hopen.trans h.balanced⟩

/-- A closed body is read in one piece, whatever follows it. The braces after it are lexemes of
their own. -/
theorem IsBody.readAll_append {raw : Text} (h : raw.IsBody) (rest : Text) :
    readAll (raw ++ '}' :: '}' :: rest) = readAll raw ++ .closing :: readAll rest := by
  have hseam : Seam (raw ++ ['}', '}']) rest := by
    intro c d hc
    simp [h.closes] at hc
  have hread := Lexeme.readAll_append hseam
  rw [h.closes] at hread
  simpa using hread

theorem IsBody.closeBody {raw : Text} (h : raw.IsBody) (rest : Text) :
    Lexeme.closeBody 0 (readAll (raw ++ '}' :: '}' :: rest)) =
      some (readAll raw, readAll rest) := by
  rw [h.readAll_append, closeBody_append h.balanced]
  simp [Lexeme.closeBody]

/-- A substitution inside of a body, with nothing but plain text after it, is a body again. Inline
templates are built in this way. -/
theorem IsBody.enclose {raw after : Text} (h : raw.IsBody) (hafter : after.Braceless)
    (hlast : after.getLast? ≠ some '\\') : IsBody (enclose raw ++ after) := by
  have hread (t : Text) :
      readAll (Stencil.enclose raw ++ t) = .opening :: (readAll raw ++ .closing :: readAll t) := by
    rw [← h.readAll_append t]
    simp [Stencil.enclose, readAll]
  have hclose := Lexeme.readAll_append (seam_of_braceless hafter hlast ['}', '}'])
  refine ⟨?_, ?_⟩
  · rw [List.append_assoc, hread, hread, hclose]
    simp [readAll]
  · rw [hread, readAll_of_braceless hafter, openAfter, openAfter_append,
      openAfter_add h.balanced 1]
    simp [openAfter]

end Text

end Stencil
