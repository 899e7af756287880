import Mathlib.Data.List.Induction
import Mathlib.Tactic.Common
import Stencil.Fill

/-!
# Joined texts

The texts of the elements of a sequence are joined by intercalation with a separator. Writing them
one by one, each after a separator unless it is the first one, comes to the same.
-/
namespace Stencil

namespace Joining

/-- The texts that are not dropped: all of them, or those that are not empty. -/
def kept (joining : Joining) (texts : List Text) : List Text :=
  if joining.ignoreEmpty then texts.filter (!·.isEmpty) else texts

/-- Writes one more text after the output so far. `first` says that no text was written before, so
that a separator comes only if it leads. -/
def write (joining : Joining) : Text × Bool → Text → Text × Bool
  | (output, first), text =>
    if joining.ignoreEmpty && text.isEmpty then (output, first)
    else
      let separator := if !first || joining.leading then joining.separator else []
      (output ++ separator ++ text, false)

variable (joining : Joining)

theorem kept_concat (texts : List Text) (text : Text) :
    joining.kept (texts ++ [text]) =
      if joining.ignoreEmpty && text.isEmpty then joining.kept texts
      else joining.kept texts ++ [text] := by
  unfold kept
  cases joining.ignoreEmpty <;> cases text <;> simp

theorem intercalate_concat (separator : Text) {texts : List Text} (h : texts ≠ []) (text : Text) :
    separator.intercalate (texts ++ [text]) =
      separator.intercalate texts ++ (separator ++ text) := by
  induction texts with
  | nil => exact absurd rfl h
  | cons first rest ih =>
    cases rest with
    | nil => simp [List.intercalate_cons_cons]
    | cons second rest =>
      have hrest := ih (by simp)
      rw [List.cons_append] at hrest
      simp only [List.cons_append, List.intercalate_cons_cons, hrest, List.append_assoc]

theorem join_eq (texts : List Text) :
    joining.join texts =
      (if joining.leading && !(joining.kept texts).isEmpty then joining.separator else []) ++
        joining.separator.intercalate (joining.kept texts) := rfl

/-- One more text goes behind the texts that are joined already, which need not be looked at
again. -/
theorem write_join (texts : List Text) (text : Text) :
    joining.write (joining.join texts, (joining.kept texts).isEmpty) text =
      (joining.join (texts ++ [text]), (joining.kept (texts ++ [text])).isEmpty) := by
  by_cases hdrop : (joining.ignoreEmpty && text.isEmpty) = true
  · have hkept := joining.kept_concat texts text
    rw [if_pos hdrop] at hkept
    rw [write, if_pos hdrop, join_eq, join_eq, hkept]
  · have hkept := joining.kept_concat texts text
    rw [if_neg hdrop] at hkept
    rw [write, if_neg hdrop, join_eq, join_eq, hkept]
    -- All texts before may have been dropped: then this one is the first.
    by_cases hnil : joining.kept texts = []
    · cases joining.leading <;> simp [hnil]
    · have hconcat := intercalate_concat joining.separator hnil text
      cases joining.leading <;> simp [hnil, hconcat]

/-- Writing the texts one by one joins them, as the program does it in a loop. -/
theorem foldl_write (texts : List Text) :
    texts.foldl joining.write ([], true) =
      (joining.join texts, (joining.kept texts).isEmpty) := by
  induction texts using List.reverseRecOn with
  | nil => simp [join, kept]
  | append_singleton texts text ih =>
    rw [List.foldl_append, ih]
    exact joining.write_join texts text

end Joining

/-- The texts of the elements, joined as the clauses say, with a newline where they say nothing. -/
def Clauses.joined (clauses : Clauses) (texts : List Text) : Text :=
  let kept := if clauses.before.isSome || clauses.after.isSome then texts.filter (· ≠ []) else texts
  match clauses.join with
  | none => ['\n'].intercalate kept
  | some ⟨false, separator⟩ => separator.intercalate kept
  | some ⟨true, separator⟩ =>
    if kept = [] then [] else separator ++ separator.intercalate kept

theorem Clauses.join_joining (clauses : Clauses) (texts : List Text) :
    clauses.joining.join texts = clauses.joined texts := by
  have hfilter : texts.filter (!·.isEmpty) = texts.filter (· ≠ []) := by
    congr
    funext text
    cases text <;> rfl
  have hkept : clauses.joining.kept texts =
      if clauses.before.isSome || clauses.after.isSome then texts.filter (· ≠ []) else texts := by
    rw [Joining.kept, joining, hfilter]
  rw [Joining.join_eq, hkept, joined]
  generalize (if clauses.before.isSome || clauses.after.isSome then texts.filter (· ≠ [])
    else texts) = kept
  rcases hjoin : clauses.join with _ | ⟨_ | _, separator⟩
  · simp [joining, hjoin]
  · simp [joining, hjoin]
  · by_cases hnil : kept = [] <;> simp [joining, hjoin, hnil]

end Stencil
