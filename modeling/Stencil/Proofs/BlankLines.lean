import Mathlib.Data.List.TakeWhile
import Stencil.Proofs.Pieces
import Stencil.Proofs.Resemblance

/-!
# Blank lines before a substitution

A substitution marked with `<<` takes the start of its line and the blank lines above it. Such a
line is a whole one: it begins its body, or it comes after a newline. What is taken is the longest
such end of the literal that the substitution before has left. But compilation takes the first line
left for the rest of a line, even when the newline above it went to the substitution before.
-/
namespace Stencil

/-! ### Lines -/

def IsLine (line : Text) : Prop :=
  ∃ front, line = front ++ ['\n'] ∧ '\n' ∉ front

/-- A line that is blank up to the newline that ends it, which is blank itself. -/
def IsBlankLine (line : Text) : Prop :=
  ∃ front, line = front ++ ['\n'] ∧ '\n' ∉ front ∧ front.isAllBlank = true

theorem isBlankLine_iff {line : Text} :
    IsBlankLine line ↔ IsLine line ∧ line.isAllBlank = true := by
  have hnewline : isBlank '\n' = true := by decide
  constructor
  · rintro ⟨front, rfl, hfront, hblank⟩
    refine ⟨⟨front, rfl, hfront⟩, ?_⟩
    simpa [Text.isAllBlank, hnewline] using hblank
  · rintro ⟨⟨front, rfl, hfront⟩, hblank⟩
    refine ⟨front, rfl, hfront, ?_⟩
    simpa [Text.isAllBlank, hnewline] using hblank

theorem IsLine.getLast? {line : Text} (h : IsLine line) : line.getLast? = some '\n' := by
  obtain ⟨front, rfl, -⟩ := h
  exact List.getLast?_concat

/-- A line has no newline before its end. So nothing can follow a part of it that ends with one. -/
theorem IsLine.eq_nil_of_append {front rest : Text} (h : IsLine (front ++ rest))
    (hfront : front.getLast? = some '\n') : rest = [] := by
  obtain ⟨text, htext, hnewline⟩ := h
  rcases List.eq_nil_or_concat' rest with rfl | ⟨init, c, rfl⟩
  · rfl
  · rw [← List.append_assoc] at htext
    have hinit := (List.append_inj' htext rfl).1
    refine absurd ?_ hnewline
    rw [← hinit]
    exact List.mem_append_left _ (List.mem_of_getLast? hfront)

theorem getLast?_flatten_lines {lines : List Text} (h : ∀ line ∈ lines, IsLine line)
    (hne : lines ≠ []) : lines.flatten.getLast? = some '\n' := by
  have hlast := (h _ (List.getLast_mem hne)).getLast?
  rw [← List.dropLast_append_getLast hne, List.flatten_append, List.flatten_singleton,
    List.getLast?_append, hlast]
  rfl

theorem wholeLines_isLine (t : Text) :
    (∀ line ∈ (wholeLines t).1, IsLine line) ∧ '\n' ∉ (wholeLines t).2 := by
  fun_induction wholeLines t with
  | case1 => simp
  | case2 rest lines last h ih =>
    rw [h] at ih
    refine ⟨fun line hline => ?_, ih.2⟩
    rcases List.mem_cons.1 hline with rfl | hline
    · exact ⟨[], rfl, List.not_mem_nil⟩
    · exact ih.1 line hline
  | case3 c rest last hc h ih =>
    rw [h] at ih
    exact ⟨ih.1, by simpa [Ne.symm hc] using ih.2⟩
  | case4 c rest last hc line more h ih =>
    rw [h] at ih
    refine ⟨fun line' hline => ?_, ih.2⟩
    rcases List.mem_cons.1 hline with rfl | hline
    · obtain ⟨front, rfl, hfront⟩ := ih.1 line List.mem_cons_self
      exact ⟨c :: front, rfl, by simpa [Ne.symm hc] using hfront⟩
    · exact ih.1 line' (List.mem_cons_of_mem _ hline)

theorem wholeLines_line_append {line : Text} (h : IsLine line) (t : Text) :
    wholeLines (line ++ t) = (line :: (wholeLines t).1, (wholeLines t).2) := by
  obtain ⟨front, rfl, hfront⟩ := h
  induction front with
  | nil => rfl
  | cons c front ih =>
    obtain ⟨hc, hfront⟩ := not_or.1 (mt List.mem_cons.2 hfront)
    rw [List.cons_append, List.cons_append, wholeLines, ih hfront]
    simp [Ne.symm hc]

theorem wholeLines_of_notMem {t : Text} (h : '\n' ∉ t) : wholeLines t = ([], t) := by
  induction t with
  | nil => rfl
  | cons c t ih =>
    obtain ⟨hc, ht⟩ := not_or.1 (mt List.mem_cons.2 h)
    rw [wholeLines, ih ht]
    simp [Ne.symm hc]

/-- There is one way to cut a text into lines, given by where the newlines are. -/
theorem wholeLines_flatten_append {lines : List Text} {last : Text}
    (hlines : ∀ line ∈ lines, IsLine line) (hlast : '\n' ∉ last) :
    wholeLines (lines.flatten ++ last) = (lines, last) := by
  induction lines with
  | nil => exact wholeLines_of_notMem hlast
  | cons line lines ih =>
    have hrest := ih fun line' hline => hlines line' (List.mem_cons_of_mem _ hline)
    rw [List.flatten_cons, List.append_assoc,
      wholeLines_line_append (hlines line List.mem_cons_self), hrest]

/-- What is empty or ends with a newline, so that a line begins right after it. -/
def EndsLine (t : Text) : Prop :=
  t = [] ∨ t.getLast? = some '\n'

theorem EndsLine.wholeLines_eq {t : Text} (h : EndsLine t) : (wholeLines t).2 = [] := by
  have hjoin := wholeLines_join t
  cases hrest : (wholeLines t).2 with
  | nil => rfl
  | cons c rest =>
    rcases h with rfl | h
    · cases hrest
    · rw [← hjoin, List.getLast?_append_of_ne_nil _ (by simp [hrest])] at h
      exact absurd (List.mem_of_getLast? h) (wholeLines_isLine t).2

/-- Where a line ends, the lines before and after are apart, and are those of the two texts. -/
theorem EndsLine.wholeLines_append {s : Text} (h : EndsLine s) (t : Text) :
    wholeLines (s ++ t) = ((wholeLines s).1 ++ (wholeLines t).1, (wholeLines t).2) := by
  have hlines : ∀ line ∈ (wholeLines s).1 ++ (wholeLines t).1, IsLine line := by
    intro line hline
    rcases List.mem_append.1 hline with hline | hline
    · exact (wholeLines_isLine s).1 line hline
    · exact (wholeLines_isLine t).1 line hline
  have hcut := wholeLines_flatten_append hlines (wholeLines_isLine t).2
  have hs := wholeLines_join s
  rw [h.wholeLines_eq, List.append_nil] at hs
  rwa [List.flatten_append, List.append_assoc, wholeLines_join, hs] at hcut

/-! ### Blank ends -/

namespace Margin

/-- `taken` is an end of `run` that consists of blank lines and of what follows the last newline.
All these lines are whole ones; the first line of `run` is one when `whole` holds. -/
def IsBlankEnd (whole : Prop) (run taken : Text) : Prop :=
  ∃ kept lines last, run = kept ++ taken ∧ taken = lines.flatten ++ last ∧
    (∀ line ∈ lines, IsBlankLine line) ∧ '\n' ∉ last ∧
      (kept.getLast? = some '\n' ∨ kept = [] ∧ (whole ∨ lines = []))

structure IsLongestBlankEnd (whole : Prop) (run taken : Text) : Prop where
  isBlankEnd : IsBlankEnd whole run taken
  longest : ∀ other, IsBlankEnd whole run other → other <:+ taken

theorem IsLongestBlankEnd.congr {whole whole' : Prop} {run taken : Text}
    (h : IsLongestBlankEnd whole run taken) (hwhole : whole ↔ whole') :
    IsLongestBlankEnd whole' run taken := by
  rwa [← propext hwhole]

theorem isSuffix_splitBlankEnd {lines blank : List Text} (h : blank <:+ lines)
    (hblank : ∀ line ∈ blank, line.isAllBlank = true) : blank <:+ (splitBlankEnd lines).2 := by
  obtain ⟨front, rfl⟩ := h
  have hrev : ∀ line ∈ blank.reverse, line.isAllBlank = true := by simpa using hblank
  rw [splitBlankEnd, List.reverse_append, List.takeWhile_append_of_pos hrev, List.reverse_append,
    List.reverse_reverse]
  exact List.suffix_append _ _

/-- The lines that a double marker may take, and how it takes them. The first line is fixed unless
it is known to be a whole one. -/
theorem cutLeading_lines (atStart : Bool) (literal : Text) :
    ∃ fixed free, fixed ++ free = (wholeLines literal).1 ∧
      (fixed = if atStart then [] else (wholeLines literal).1.take 1) ∧
      cutLeading (some .lines) atStart literal =
        ((fixed ++ (splitBlankEnd free).1).flatten,
          (splitBlankEnd free).2.flatten ++ (wholeLines literal).2) := by
  cases atStart with
  | true => exact ⟨[], _, rfl, rfl, rfl⟩
  | false => exact ⟨_, _, List.take_append_drop 1 _, rfl, rfl⟩

theorem cutLeading_isBlankEnd (atStart : Bool) (literal : Text) :
    IsBlankEnd (atStart = true) literal (cutLeading (some .lines) atStart literal).2 := by
  obtain ⟨hlines, hlast⟩ := wholeLines_isLine literal
  have hcut := cutLeading_join (some .lines) atStart literal
  obtain ⟨fixed, free, hall, hfixed, heq⟩ := cutLeading_lines atStart literal
  have hsplit := splitBlankEnd_join free
  rw [heq] at hcut ⊢
  have hmem {line : Text} (h : line ∈ fixed ++ (splitBlankEnd free).1 ∨
      line ∈ (splitBlankEnd free).2) : IsLine line := by
    refine hlines line ?_
    rw [← hall, ← hsplit, ← List.append_assoc]
    exact List.mem_append.2 h
  refine ⟨_, _, _, hcut.symm, rfl, fun line hline => ?_, hlast, ?_⟩
  · refine isBlankLine_iff.2 ⟨hmem (.inr hline), ?_⟩
    exact List.mem_takeWhile_imp (List.mem_reverse.1 hline)
  · by_cases hkept : fixed ++ (splitBlankEnd free).1 = []
    · refine .inr ⟨by rw [hkept]; rfl, ?_⟩
      cases atStart with
      | true => exact .inl rfl
      | false =>
        -- nothing is left of the lines without the first one
        rw [(List.append_eq_nil_iff.1 hkept).1] at hall hfixed
        have hnil : (wholeLines literal).1 = [] := by simpa using hfixed.symm
        have hfree : free = [] := by simpa [hnil] using hall
        exact .inr (by rw [hfree]; rfl)
    · exact .inl (getLast?_flatten_lines (fun line hline => hmem (.inl hline)) hkept)

theorem isSuffix_free {atStart : Bool} {kept : Text} {fixed free blank : List Text}
    (hstart : kept.getLast? = some '\n' ∨ kept = [] ∧ (atStart = true ∨ blank = []))
    (hall : fixed ++ free = (wholeLines kept).1 ++ blank)
    (hfixed : fixed = if atStart then [] else ((wholeLines kept).1 ++ blank).take 1) :
    blank <:+ free := by
  by_cases hnil : blank = []
  · exact hnil ▸ List.nil_suffix
  cases atStart with
  | true =>
    obtain rfl : fixed = [] := hfixed
    exact ⟨_, hall.symm⟩
  | false =>
    -- the first line is before `blank`, as it is not a whole one
    have hjoin := wholeLines_join kept
    cases hlines : (wholeLines kept).1 with
    | nil =>
      obtain hlast | ⟨-, h | h⟩ := hstart
      · rw [EndsLine.wholeLines_eq (.inr hlast), hlines] at hjoin
        rw [← hjoin] at hlast
        cases hlast
      · cases h
      · exact absurd h hnil
    | cons line more =>
      rw [hlines] at hall hfixed
      obtain rfl : fixed = [line] := by simpa using hfixed
      obtain rfl : free = more ++ blank := by simpa using hall
      exact List.suffix_append more blank

/-- A double marker takes the longest blank end of its literal, as far as lines are known to be
whole. -/
theorem cutLeading_isLongestBlankEnd (atStart : Bool) (literal : Text) :
    IsLongestBlankEnd (atStart = true) literal (cutLeading (some .lines) atStart literal).2 := by
  refine ⟨cutLeading_isBlankEnd atStart literal, ?_⟩
  rintro _ ⟨kept, blank, last, rfl, rfl, hblank, hlast, hstart⟩
  have hends : EndsLine kept := hstart.elim .inr fun h => .inl h.1
  have hwhole := hends.wholeLines_append (blank.flatten ++ last)
  rw [wholeLines_flatten_append (fun line hline => (isBlankLine_iff.1 (hblank line hline)).1) hlast]
    at hwhole
  obtain ⟨fixed, free, hall, hfixed, heq⟩ :=
    cutLeading_lines atStart (kept ++ (blank.flatten ++ last))
  rw [hwhole] at hall hfixed heq
  obtain ⟨front, hfront⟩ := isSuffix_splitBlankEnd (isSuffix_free hstart hall hfixed)
    fun line hline => (isBlankLine_iff.1 (hblank line hline)).2
  refine ⟨front.flatten, ?_⟩
  simp [heq, ← hfront]

theorem IsBlankEnd.mono {whole whole' : Prop} {run taken : Text} (h : IsBlankEnd whole run taken)
    (hwhole : whole → whole') : IsBlankEnd whole' run taken := by
  obtain ⟨kept, lines, last, hrun, htaken, hblank, hlast, hstart⟩ := h
  refine ⟨kept, lines, last, hrun, htaken, hblank, hlast, ?_⟩
  exact hstart.imp_right (And.imp_right (Or.imp_left hwhole))

/-- The line before a longest blank end, when it is the first one and not blank, stays before it
even as a whole line. -/
theorem IsLongestBlankEnd.of_kept {kept taken : Text}
    (h : IsLongestBlankEnd False (kept ++ taken) taken) (hkept : ¬ IsBlankLine kept)
    (whole : Prop) : IsLongestBlankEnd whole (kept ++ taken) taken := by
  refine ⟨h.isBlankEnd.mono False.elim, ?_⟩
  rintro other ⟨before, lines, last, hrun, rfl, hblank, hlast, hbefore⟩
  obtain hbefore | ⟨rfl, -⟩ := hbefore
  · exact h.longest _ ⟨before, lines, last, hrun, rfl, hblank, hlast, .inl hbefore⟩
  cases lines with
  | nil => exact h.longest _ ⟨[], [], last, hrun, rfl, hblank, hlast, .inr ⟨rfl, .inr rfl⟩⟩
  | cons line lines =>
    -- all the text is blank, so what is kept of it is the first line or nothing
    obtain ⟨hline, hlines⟩ := List.forall_mem_cons.1 hblank
    have hend : line.getLast? = some '\n' := (isBlankLine_iff.1 hline).1.getLast?
    rw [List.flatten_cons, List.append_assoc, List.nil_append] at hrun
    obtain ⟨front, hfront⟩ :=
      h.longest _ ⟨line, lines, last, hrun, rfl, hlines, hlast, .inl hend⟩
    rw [← hfront, ← List.append_assoc, List.append_cancel_right_eq] at hrun
    obtain ⟨before, _, _, hbefore, -, -, -, hstart⟩ := h.isBlankEnd
    obtain rfl : kept = before := List.append_cancel_right hbefore
    obtain hstart | ⟨rfl, -⟩ := hstart
    · obtain rfl := IsLine.eq_nil_of_append (hrun ▸ (isBlankLine_iff.1 hline).1) hstart
      rw [List.append_nil] at hrun
      exact absurd (hrun ▸ hline) hkept
    · rw [← hfront, ← hrun]
      simp

/-- When one blank line is left, a longest blank end would be all of its text if the first line of
the text were a whole one. -/
theorem IsLongestBlankEnd.of_isBlankLine {kept taken : Text}
    (h : IsBlankEnd False (kept ++ taken) taken) (hkept : IsBlankLine kept) :
    IsLongestBlankEnd True (kept ++ taken) (kept ++ taken) := by
  obtain ⟨_, lines, last, -, rfl, hblank, hlast, -⟩ := h
  refine ⟨⟨[], kept :: lines, last, rfl, by simp, ?_, hlast, .inr ⟨rfl, .inl trivial⟩⟩, ?_⟩
  · exact List.forall_mem_cons.2 ⟨hkept, hblank⟩
  · rintro other ⟨before, _, _, hrun, -⟩
    exact ⟨before, hrun.symm⟩

end Margin

/-! ### The leading text of a compiled substitution -/

namespace Body

variable (body : Body) (i : Nat)

/-- The literal text before piece `i` begins a line, after the substitution before has taken its
part of it. -/
def AtLineStart : Prop :=
  i = 0 ∨ (body.takenBefore i).getLast? = some '\n'

/-- A single blank line stays before piece `i`, and the newline above it went to the substitution
before. -/
def MissesLine (kept : Text) : Prop :=
  (body.takenBefore i).getLast? = some '\n' ∧ IsBlankLine kept

variable {body i} {kept leading : Text}

/-- For a cut only the first literal of a body begins a line. Unless this misses a line, what is cut
is the longest blank end in the source, too. -/
theorem isLongestBlankEnd_of_not_misses
    (hleading : leading = (Margin.cutLeading (some .lines) (decide (i = 0)) (kept ++ leading)).2)
    (hmisses : ¬ body.MissesLine i kept) :
    Margin.IsLongestBlankEnd (body.AtLineStart i) (kept ++ leading) leading := by
  have hcut := Margin.cutLeading_isLongestBlankEnd (decide (i = 0)) (kept ++ leading)
  rw [← hleading, decide_eq_true_eq] at hcut
  by_cases hi : i = 0
  · exact hcut.congr (by simp [AtLineStart, hi])
  · have hinner := hcut.congr (iff_false_intro hi)
    by_cases htaken : (body.takenBefore i).getLast? = some '\n'
    · exact hinner.of_kept (fun hkept => hmisses ⟨htaken, hkept⟩) _
    · exact hinner.congr (by simp [AtLineStart, hi, htaken])

theorem isLongestBlankEnd_of_misses
    (hleading : leading = (Margin.cutLeading (some .lines) (decide (i = 0)) (kept ++ leading)).2)
    (hmisses : body.MissesLine i kept) :
    Margin.IsLongestBlankEnd (body.AtLineStart i) (kept ++ leading) (kept ++ leading) := by
  have hcut := Margin.cutLeading_isBlankEnd (decide (i = 0)) (kept ++ leading)
  rw [← hleading, decide_eq_true_eq] at hcut
  have hi : i ≠ 0 := by
    rintro rfl
    cases hmisses.1
  have hlongest := Margin.IsLongestBlankEnd.of_isBlankLine (hcut.mono hi) hmisses.2
  exact hlongest.congr (by simp [AtLineStart, hmisses.1])

end Body

/-- In every body of a template, a substitution that is marked with `<<` takes the longest blank end
of the literal before it, as far as the substitution before has left that. The one exception is a
blank line that stays because the newline above it was taken: then the longest blank end would have
been all that was left. -/
theorem compile_blankEnds {source : Text} {compiled : Compiled}
    (h : compile source = .ok compiled) {body : Body} (hbody : compiled.root.Holds body) :
    ∃ text start, source.Holds text ∧ (compileSource start text).result = .ok body ∧
      ∀ i whole raw clauses, text.pieces[i]? = some (whole, raw) →
        Directive.read raw = .substitution clauses → clauses.before = some .lines →
        ∃ piece run, body.pieces[i]? = some piece ∧ whole = body.takenBefore i ++ run ∧
          run = piece.kept ++ piece.place.leading ∧
          (¬ body.MissesLine i piece.kept →
            Margin.IsLongestBlankEnd (body.AtLineStart i) run piece.place.leading) ∧
          (body.MissesLine i piece.kept →
            Margin.IsLongestBlankEnd (body.AtLineStart i) run run) := by
  obtain ⟨text, start, htext, htemplate⟩ := exists_text_of_holds (compile_eq_ok.1 h).2 hbody
  refine ⟨text, start, htext, htemplate, fun i whole raw clauses hi hread hmark => ?_⟩
  obtain ⟨piece, hpiece, hwhole, hgives⟩ := (compileSource_pieces htemplate).2 i whole raw hi
  rw [hread] at hgives
  obtain ⟨-, hleading⟩ := hgives
  rw [hmark] at hleading
  exact ⟨piece, _, hpiece, hwhole, rfl, Body.isLongestBlankEnd_of_not_misses hleading,
    Body.isLongestBlankEnd_of_misses hleading⟩

/-- A list whose template has a blank line and the start of a line before its second substitution.
Both go away with it. -/
def spacedSource : Text :=
  "\x7b\x7bv|!k\x7b\x7ba>\x7d\x7d-\nz\n \n \x7b\x7b<<b\x7d\x7d\x7d\x7d".toList

theorem compile_blankEnds_spaced :
    ∃ compiled body, compile spacedSource = .ok compiled ∧ compiled.root.Holds body ∧
      body.pieces.map (fun piece => (piece.kept, piece.place.leading)) =
        [("k".toList, []), ("z\n".toList, " \n ".toList)] ∧
      ∃ text start, spacedSource.Holds text ∧ (compileSource start text).result = .ok body ∧
        ∀ i whole raw clauses, text.pieces[i]? = some (whole, raw) →
          Directive.read raw = .substitution clauses → clauses.before = some .lines →
          ∃ piece run, body.pieces[i]? = some piece ∧ whole = body.takenBefore i ++ run ∧
            run = piece.kept ++ piece.place.leading ∧
            (¬ body.MissesLine i piece.kept →
              Margin.IsLongestBlankEnd (body.AtLineStart i) run piece.place.leading) ∧
            (body.MissesLine i piece.kept →
              Margin.IsLongestBlankEnd (body.AtLineStart i) run run) := by
  have hcompile : (compile spacedSource).toOption.isSome = true := by decide +kernel
  have hinline : ((compile spacedSource).toOption.bind fun compiled =>
      (compiled.root.pieces.head?.bind fun piece => piece.action.inline?).map fun body =>
        body.pieces.map fun piece => (piece.kept, piece.place.leading)) =
      some [("k".toList, []), ("z\n".toList, " \n ".toList)] := by decide +kernel
  obtain ⟨compiled, h⟩ := exists_compile hcompile
  rw [h] at hinline
  obtain ⟨body, hbody, hpieces⟩ := Option.map_eq_some_iff.1 hinline
  obtain ⟨piece, hpiece, hinner⟩ := Option.bind_eq_some_iff.1 hbody
  have hholds : compiled.root.Holds body := .inline .self (List.mem_of_head? hpiece) hinner
  exact ⟨compiled, body, h, hholds, hpieces, compile_blankEnds h hholds⟩

/-- A blank line between a substitution that takes the newline before it and one that takes blank
lines. -/
def missedSource : Text :=
  "\x7b\x7ba>\x7d\x7d\n  \n\x7b\x7b<<b\x7d\x7d".toList

/-- The blank line begins after a newline, but stays: the substitution before it took that newline,
and the cut does not see it any more. -/
theorem compile_blankEnds_missed :
    ∃ compiled piece clauses, compile missedSource = .ok compiled ∧
      missedSource.pieces[1]? = some ("\n  \n".toList, "<<b".toList) ∧
      Directive.read "<<b".toList = .substitution clauses ∧ clauses.before = some .lines ∧
      compiled.root.pieces[1]? = some piece ∧ compiled.root.takenBefore 1 = ['\n'] ∧
      piece.kept = "  \n".toList ∧ piece.place.leading = [] ∧
      ¬ Margin.IsLongestBlankEnd (compiled.root.AtLineStart 1) (piece.kept ++ piece.place.leading)
        piece.place.leading := by
  have hcompile : (compile missedSource).toOption.isSome = true := by decide +kernel
  have hpieces : ((compile missedSource).toOption.map fun compiled =>
      (compiled.root.pieces[1]?.map fun piece => (piece.kept, piece.place.leading),
        compiled.root.takenBefore 1)) =
      some (some ("  \n".toList, []), ['\n']) := by decide +kernel
  obtain ⟨compiled, h⟩ := exists_compile hcompile
  rw [h] at hpieces
  obtain ⟨hpiece, htaken⟩ := Prod.mk.inj (Option.some.inj hpieces)
  obtain ⟨piece, hpiece, hcut⟩ := Option.map_eq_some_iff.1 hpiece
  obtain ⟨hkept, hleading⟩ := Prod.mk.inj hcut
  refine ⟨compiled, piece, _, h, by decide +kernel, rfl, rfl, hpiece, htaken, hkept, hleading, ?_⟩
  intro hlongest
  rw [hkept, hleading] at hlongest
  have hblank : ∀ line ∈ ["  \n".toList], IsBlankLine line := fun line hline =>
    ⟨[' ', ' '], by simpa using hline, by decide, by decide⟩
  have hstart : compiled.root.AtLineStart 1 := .inr (by rw [htaken]; rfl)
  have hall := hlongest.longest "  \n".toList
    ⟨[], ["  \n".toList], [], rfl, rfl, hblank, List.not_mem_nil, .inr ⟨rfl, .inl hstart⟩⟩
  exact absurd hall.length_le (by decide)

end Stencil
