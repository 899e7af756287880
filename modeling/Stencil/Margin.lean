import Stencil.Directive

/-!
# Margins

A marked substitution takes text from the literals on its two sides: the rest of its line,
and with a double marker the whole blank lines beyond it. This text is written only when
the substitution is not empty. A cut never loses text: the two parts of a literal together
are the literal.
-/
namespace Stencil

/-- The whole lines of a text, each with its newline, and what follows the last newline. That last
part may be empty. -/
def wholeLines : Text → List Text × Text
  | [] => ([], [])
  | c :: rest =>
    let (lines, last) := wholeLines rest
    if c = '\n' then ([c] :: lines, last)
    else match lines with
      | [] => ([], c :: last)
      | line :: more => ((c :: line) :: more, last)

theorem wholeLines_join (t : Text) : (wholeLines t).1.flatten ++ (wholeLines t).2 = t := by
  fun_induction wholeLines t with
  | case1 => rfl
  | case2 rest lines last h ih | case3 c rest last _ h ih | case4 c rest last _ line more h ih =>
    rw [h] at ih
    simpa using ih

namespace Margin

/-- The blank lines at the end of a list of lines, after the lines before them. Only whole lines can
be blank here. -/
def splitBlankEnd (lines : List Text) : List Text × List Text :=
  ((lines.reverse.dropWhile Text.isAllBlank).reverse,
   (lines.reverse.takeWhile Text.isAllBlank).reverse)

theorem splitBlankEnd_join (lines : List Text) :
    (splitBlankEnd lines).1 ++ (splitBlankEnd lines).2 = lines := by
  rw [splitBlankEnd, ← List.reverse_append, List.takeWhile_append_dropWhile, List.reverse_reverse]

/-- Cuts a literal into what stays and what the substitution after it takes. `atStart` says that
the literal starts its body, so that its first line is a whole one. -/
def cutLeading (mark : Option Mark) (atStart : Bool) (literal : Text) : Text × Text :=
  let (lines, last) := wholeLines literal
  match mark with
  | none => (literal, [])
  | some .line => (lines.flatten, last)
  | some .lines =>
    let fixed := if atStart then [] else lines.take 1
    let free := if atStart then lines else lines.drop 1
    let (kept, blank) := splitBlankEnd free
    ((fixed ++ kept).flatten, blank.flatten ++ last)

theorem cutLeading_join (mark : Option Mark) (atStart : Bool) (literal : Text) :
    (cutLeading mark atStart literal).1 ++ (cutLeading mark atStart literal).2 = literal := by
  have hjoin := wholeLines_join literal
  match mark with
  | none => simp [cutLeading]
  | some .line => simpa [cutLeading] using hjoin
  | some .lines =>
    have hblank (lines : List Text) (tail : Text) : (splitBlankEnd lines).1.flatten ++
        ((splitBlankEnd lines).2.flatten ++ tail) = lines.flatten ++ tail := by
      rw [← List.append_assoc, ← List.flatten_append, splitBlankEnd_join]
    simp only [cutLeading, List.flatten_append, List.append_assoc, hblank]
    cases atStart
    · simp only [Bool.false_eq_true, if_false]
      rw [← List.append_assoc, ← List.flatten_append, List.take_append_drop, hjoin]
    · simpa using hjoin

/-- Cuts a literal into what the substitution before it takes and what stays. Without a mark nothing
is taken. -/
def cutTrailing (mark : Option Mark) (literal : Text) : Text × Text :=
  match mark, wholeLines literal with
  | none, _ => ([], literal)
  | some _, ([], last) => (last, [])
  | some .line, (line :: more, last) => (line, more.flatten ++ last)
  | some .lines, (line :: more, last) =>
    (line ++ (more.takeWhile Text.isAllBlank).flatten,
     (more.dropWhile Text.isAllBlank).flatten ++ last)

theorem cutTrailing_join (mark : Option Mark) (literal : Text) :
    (cutTrailing mark literal).1 ++ (cutTrailing mark literal).2 = literal := by
  have hjoin := wholeLines_join literal
  unfold cutTrailing
  split
  · rfl
  · rename_i h
    simpa [h] using hjoin
  · rename_i h
    simpa [h] using hjoin
  · rename_i line more last h
    rw [h] at hjoin
    rw [List.append_assoc, ← List.append_assoc (List.flatten _), ← List.flatten_append,
      List.takeWhile_append_dropWhile]
    simpa using hjoin

end Margin

end Stencil
