import Stencil.Proofs.ContingentText
import Stencil.Proofs.SingleValue

/-!
# A substitution alone on its line

A substitution with double markers on both sides, alone on its line, disappears together with the
line and the blank lines around it when its value is empty, and leaves everything as it is when it
is not. The walk back stops at the line that is not blank, and the walk on before it, so the two
markers take exactly the line and the blank lines around it.
-/
namespace Stencil

/-- What is empty or ends with a line that is not blank. A walk back over blank lines goes no
further than its end. -/
def StopsAtText (t : Text) : Prop :=
  t = [] ∨ ∃ front line, t = front ++ line ∧ EndsLine front ∧ IsLine line ∧ ¬ IsBlankLine line

/-- What does not start with a blank line. A walk on over blank lines comes to its start and goes no
further. -/
def StartsAtText (t : Text) : Prop :=
  ∀ line rest, t = line ++ rest → ¬ IsBlankLine line

/-- Blanks within a line. The text may be empty, and it may be written with wide blanks, but it ends
no line. -/
def IsGap (t : Text) : Prop :=
  '\n' ∉ t ∧ t.isAllBlank = true

theorem braceless_of_isAllBlank {t : Text} (h : t.isAllBlank = true) : t.Braceless := by
  intro c hc
  have hblank := List.all_eq_true.1 h c hc
  constructor <;> rintro rfl <;> exact absurd hblank (by decide)

theorem isAllBlank_flatten {lines : List Text} (h : ∀ line ∈ lines, IsBlankLine line) :
    Text.isAllBlank lines.flatten = true := by
  refine List.all_eq_true.2 fun c hc => ?_
  obtain ⟨line, hline, hmem⟩ := List.mem_flatten.1 hc
  exact List.all_eq_true.1 (isBlankLine_iff.1 (h line hline)).2 c hmem

theorem StopsAtText.endsLine {t : Text} (h : StopsAtText t) : EndsLine t := by
  rcases h with rfl | ⟨front, line, rfl, -, hline, -⟩
  · exact .inl rfl
  · refine .inr ?_
    rw [List.getLast?_append, hline.getLast?]
    rfl

theorem StopsAtText.getLast?_wholeLines {t line : Text} (h : StopsAtText t)
    (hlast : (wholeLines t).1.getLast? = some line) : line.isAllBlank = false := by
  rcases h with rfl | ⟨front, last, rfl, hfront, hline, hblank⟩
  · cases hlast
  · have hwhole := hfront.wholeLines_append last
    have hcut := wholeLines_line_append hline []
    rw [List.append_nil] at hcut
    rw [hwhole, hcut] at hlast
    obtain rfl : last = line := by simpa [wholeLines] using hlast
    rw [isBlankLine_iff, not_and, Bool.not_eq_true] at hblank
    exact hblank hline

/-! ### What the markers take -/

namespace Margin

theorem splitBlankEnd_append {lines blank : List Text}
    (hlines : ∀ line, lines.getLast? = some line → line.isAllBlank = false)
    (hblank : ∀ line ∈ blank, line.isAllBlank = true) :
    splitBlankEnd (lines ++ blank) = (lines, blank) := by
  have hrev : ∀ line ∈ blank.reverse, line.isAllBlank = true := by simpa using hblank
  have hstop : lines.reverse.dropWhile Text.isAllBlank = lines.reverse ∧
      lines.reverse.takeWhile Text.isAllBlank = [] := by
    rcases List.eq_nil_or_concat' lines with rfl | ⟨front, line, rfl⟩
    · exact ⟨rfl, rfl⟩
    · have hline := hlines line List.getLast?_concat
      simp [hline]
  rw [splitBlankEnd, List.reverse_append, List.dropWhile_append_of_pos hrev,
    List.takeWhile_append_of_pos hrev, hstop.1, hstop.2]
  simp

/-- The blank lines at the end of a body's first literal and the start of a line go together. What
comes before them is kept. -/
theorem cutLeading_blankLines {kept last : Text} {blank : List Text} (hkept : StopsAtText kept)
    (hblank : ∀ line ∈ blank, IsBlankLine line) (hlast : '\n' ∉ last) :
    cutLeading (some .lines) true (kept ++ (blank.flatten ++ last)) =
      (kept, blank.flatten ++ last) := by
  have hlines : ∀ line ∈ blank, IsLine line := fun line hline =>
    (isBlankLine_iff.1 (hblank line hline)).1
  have hwhole := hkept.endsLine.wholeLines_append (blank.flatten ++ last)
  rw [wholeLines_flatten_append hlines hlast] at hwhole
  have hsplit : splitBlankEnd ((wholeLines kept).1 ++ blank) = ((wholeLines kept).1, blank) :=
    splitBlankEnd_append (fun line => hkept.getLast?_wholeLines)
      fun line hline => (isBlankLine_iff.1 (hblank line hline)).2
  have hjoin := wholeLines_join kept
  rw [hkept.endsLine.wholeLines_eq, List.append_nil] at hjoin
  simp only [cutLeading, hwhole, if_true, hsplit, List.nil_append, hjoin]

/-- The rest of a line and the blank lines after it go together. What comes after them is kept, from
the start of its first line. -/
theorem cutTrailing_blankLines {first rest : Text} {blank : List Text} (hfirst : '\n' ∉ first)
    (hblank : ∀ line ∈ blank, IsBlankLine line) (hrest : StartsAtText rest) :
    cutTrailing (some .lines) (first ++ '\n' :: (blank.flatten ++ rest)) =
      (first ++ '\n' :: blank.flatten, rest) := by
  have hline : IsLine (first ++ ['\n']) := ⟨first, rfl, hfirst⟩
  have hall : ∀ line ∈ blank, line.isAllBlank = true := fun line hline =>
    (isBlankLine_iff.1 (hblank line hline)).2
  have hstop : (wholeLines rest).1.takeWhile Text.isAllBlank = [] ∧
      (wholeLines rest).1.dropWhile Text.isAllBlank = (wholeLines rest).1 := by
    cases hlines : wholeLines rest with
    | mk lines last =>
      cases lines with
      | nil => exact ⟨rfl, rfl⟩
      | cons line more =>
        obtain ⟨hwhole, hsplit, -⟩ := isFirstLine_of_cons hlines
        have hnot := hrest line _ hsplit
        rw [isBlankLine_iff, not_and, Bool.not_eq_true] at hnot
        simp [hnot hwhole]
  have hwhole : wholeLines (first ++ '\n' :: (blank.flatten ++ rest)) =
      ((first ++ ['\n']) :: (blank ++ (wholeLines rest).1), (wholeLines rest).2) := by
    have hcut := wholeLines_line_append hline (blank.flatten ++ rest)
    rw [wholeLines_lines_append fun line hline => (isBlankLine_iff.1 (hblank line hline)).1] at hcut
    simpa using hcut
  have hjoin := wholeLines_join rest
  simp only [cutTrailing, hwhole, List.takeWhile_append_of_pos hall,
    List.dropWhile_append_of_pos hall, hstop.1, hstop.2, List.append_nil, hjoin]
  simp

end Margin

/-! ### The line of a substitution -/

/-- The text around a substitution that stands alone on its line, cut at the substitution and
between the blank lines on both sides. -/
structure Standalone where
  before : Text
  /-- The blank lines above the line of the substitution, up to a line that is not blank. -/
  above : List Text
  /-- What stands on the line before the substitution. It is blank and may be empty. -/
  indent : Text
  /-- What stands on the line after the substitution. It is blank and ends before the line break. -/
  trail : Text
  /-- The blank lines below the line of the substitution, up to what does not start with a blank
  line. -/
  below : List Text
  after : Text

namespace Standalone

structure Valid (s : Standalone) : Prop where
  plainBefore : s.before.Braceless
  before : StopsAtText s.before
  above : ∀ line ∈ s.above, IsBlankLine line
  indent : IsGap s.indent
  trail : IsGap s.trail
  below : ∀ line ∈ s.below, IsBlankLine line
  plainAfter : s.after.Braceless
  after : StartsAtText s.after

/-- The text with something on the line, between the blanks that stand there. All else in the text
is as it was. -/
def around (s : Standalone) (line : Text) : Text :=
  s.before ++ (s.above.flatten ++ s.indent ++
    (line ++ (s.trail ++ '\n' :: (s.below.flatten ++ s.after))))

/-- The line of a name with double markers on both sides. This is the source of a template with a
single substitution. -/
def source (s : Standalone) (name : Text) : Text :=
  s.around (enclose ('<' :: '<' :: (name ++ ['>', '>'])))

variable {s : Standalone}

/-- The literals around the substitution have no braces, and none of them touches its braces. So the
source is cut into them and the body. -/
theorem Valid.ofSource (hs : s.Valid) {name : Text} (hname : name.IsComponent) :
    ∃ start, Outline.ofSource 0 (s.source name) = (s.before ++ (s.above.flatten ++ s.indent),
      .body (Mark.around (some .lines) (some .lines) name) start
        (s.trail ++ '\n' :: (s.below.flatten ++ s.after)) .done) := by
  have hblank : Text.isAllBlank (s.above.flatten ++ s.indent) = true := by
    rw [Text.isAllBlank, List.all_append, Bool.and_eq_true]
    exact ⟨isAllBlank_flatten hs.above, hs.indent.2⟩
  have hbelow : Text.isAllBlank (s.trail ++ '\n' :: s.below.flatten) = true := by
    rw [Text.isAllBlank, List.all_append, Bool.and_eq_true, List.all_cons, Bool.and_eq_true]
    exact ⟨hs.trail.2, by decide, isAllBlank_flatten hs.below⟩
  have hlast : (s.before ++ (s.above.flatten ++ s.indent)).getLast? ≠ some '\\' := by
    intro hslash
    rw [List.getLast?_append] at hslash
    -- The last character is a blank of the line, or the one that ends the text before it.
    cases hend : (s.above.flatten ++ s.indent).getLast? with
    | some c =>
      rw [hend] at hslash
      obtain rfl : c = '\\' := Option.some.inj hslash
      exact absurd (List.all_eq_true.1 hblank _ (List.mem_of_getLast? hend)) (by decide)
    | none =>
      rw [hend, Option.none_or] at hslash
      rcases hs.before.endsLine with hnil | hnewline
      · simp [hnil] at hslash
      · simp [hnewline] at hslash
  have hstart : Text.Braceless (s.before ++ (s.above.flatten ++ s.indent)) :=
    List.forall_mem_append.2 ⟨hs.plainBefore, braceless_of_isAllBlank hblank⟩
  have hend : Text.Braceless (s.trail ++ '\n' :: s.below.flatten ++ s.after) :=
    List.forall_mem_append.2 ⟨braceless_of_isAllBlank hbelow, hs.plainAfter⟩
  have hcut := Outline.ofSource_between (isBody_around (some .lines) (some .lines) hname) 0 hstart
    hlast hend
  rw [List.append_assoc s.trail, List.cons_append] at hcut
  refine ⟨_, Eq.trans ?_ hcut⟩
  simp [source, around, Mark.around, Mark.open, Mark.close]

end Standalone

/-- Together with a substitution alone on its line that is empty, the line and the blank lines
around it disappear. Around one that is not empty they stay. -/
theorem fillWithin_standalone {s : Standalone} (hs : s.Valid) {name : Text}
    (hname : name.IsComponent) (limit : Nat) (templates : TemplateMap) (t : Tally) :
    ((Template.new (s.source name)).fillWithin (limit + 1) templates
        (.map none [(name, .scalar [])])).run t = ⟨.ok (s.before ++ s.after), [], t⟩ ∧
    ∀ v : Text, v ≠ [] →
      ((Template.new (s.source name)).fillWithin (limit + 1) templates
        (.map none [(name, .scalar v)])).run t = ⟨.ok (s.around v), [], t⟩ := by
  obtain ⟨_, hcut⟩ := hs.ofSource hname
  have hleading := Margin.cutLeading_blankLines hs.before hs.above hs.indent.1
  have htrailing := Margin.cutTrailing_blankLines hs.trail.1 hs.below hs.after
  constructor
  · rw [run_fillWithin_around hname hcut, hleading, htrailing]
    simp
  · intro v hv
    rw [run_fillWithin_around hname hcut, hleading, htrailing, if_neg hv]
    simp [Standalone.around]

/-- A line between blank ones, some of them with wide blanks, and a text at the end. There are
blanks on the line itself as well. -/
def standaloneLine : Standalone where
  before := ['a', 'é', '\n']
  above := [['\n'], ['\u2003', ' ', '\n']]
  indent := [' ', '\t']
  trail := ['\u00a0']
  below := [[' ', '\n']]
  after := ['b', '\n', '\n']

theorem fillWithin_standalone_wide :
    standaloneLine.Valid ∧ Text.IsComponent ['x'] ∧
    ((Template.new (standaloneLine.source ['x'])).fillWithin 1 .empty
        (.map none [(['x'], .scalar [])])).run .empty = ⟨.ok "aé\nb\n\n".toList, [], .empty⟩ ∧
    ((Template.new (standaloneLine.source ['x'])).fillWithin 1 .empty
        (.map none [(['x'], .scalar ['1'])])).run .empty =
      ⟨.ok "aé\n\n\u2003 \n \t1\u00a0\n \nb\n\n".toList, [], .empty⟩ := by
  have hname : Text.IsComponent ['x'] := by decide
  have hline : IsLine ['a', 'é', '\n'] := ⟨['a', 'é'], rfl, by decide⟩
  have hvalid : standaloneLine.Valid := by
    refine ⟨by decide, .inr ⟨[], _, rfl, .inl rfl, hline, ?_⟩, ?_, ⟨by decide, by decide⟩,
      ⟨by decide, by decide⟩, ?_, by decide, ?_⟩
    · rw [isBlankLine_iff, not_and]
      exact fun _ => by decide
    · rintro line (_ | ⟨_, _ | ⟨_, _ | _⟩⟩)
      · exact ⟨[], rfl, by decide, rfl⟩
      · exact ⟨['\u2003', ' '], rfl, by decide, by decide⟩
    · rintro line (_ | ⟨_, _ | _⟩)
      exact ⟨[' '], rfl, by decide, by decide⟩
    · rintro line rest hafter ⟨front, rfl, -, hblank⟩
      cases front with
      | nil => cases hafter
      | cons c front =>
        obtain rfl : 'b' = c := (List.cons.inj hafter).1
        cases hblank
  obtain ⟨hempty, hvalue⟩ := fillWithin_standalone hvalid hname 0 .empty .empty
  exact ⟨hvalid, hname, hempty, hvalue ['1'] (by decide)⟩

end Stencil
