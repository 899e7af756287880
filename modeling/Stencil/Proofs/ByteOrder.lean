import Mathlib.Tactic.Common
import Stencil.Text

/-!
# The order of bytes

Names are sorted by their characters. A sort by the bytes of the UTF-8 form comes to the same order:
of two characters, the one with the larger number has the larger bytes at the first place where the
bytes differ, and neither form begins with the other one.
-/
namespace Stencil.Text

/-- The bytes of the UTF-8 form, as they are written and compared. -/
def utf8 (t : Text) : List UInt8 :=
  t.flatMap String.utf8EncodeChar

@[simp] theorem utf8_nil : utf8 [] = [] := rfl

@[simp] theorem utf8_cons (c : Char) (t : Text) :
    utf8 (c :: t) = String.utf8EncodeChar c ++ utf8 t := rfl

/-- The form of a larger character is larger, whatever follows: the two differ in a byte before the
shorter one ends. -/
theorem utf8EncodeChar_append_lt {c d : Char} (h : c < d) (s t : List UInt8) :
    String.utf8EncodeChar c ++ s < String.utf8EncodeChar d ++ t := by
  have hlt : c.val.toNat < d.val.toNat := h
  have hd : d.val.toNat < 0x110000 := by
    have hvalid : d.val.toNat.isValidChar := d.valid
    unfold Nat.isValidChar at hvalid
    omega
  unfold String.utf8EncodeChar
  generalize c.val.toNat = m at hlt ⊢
  generalize d.val.toNat = n at hlt hd ⊢
  -- each byte but the first holds six digits of the number
  have hdigits (k : Nat) : k / 4096 = k / 64 / 64 ∧ k / 262144 = k / 64 / 64 / 64 := by omega
  simp only [hdigits m, hdigits n]
  split_ifs <;> try omega
  all_goals
    simp only [List.cons_append, List.nil_append, List.cons_lt_cons_iff, UInt8.lt_iff_toNat_lt,
      ← UInt8.toNat_inj, UInt8.toNat_ofNat']
    omega

theorem utf8_lt_of_lt {s t : Text} (h : s < t) : s.utf8 < t.utf8 := by
  induction s generalizing t with
  | nil =>
    cases t with
    | nil => exact absurd h (List.lt_irrefl _)
    | cons d t =>
      have hne : String.utf8EncodeChar d ≠ [] := String.utf8EncodeChar_ne_nil
      obtain ⟨first, more, heq⟩ := List.exists_cons_of_ne_nil hne
      rw [utf8_nil, utf8_cons, heq]
      exact List.nil_lt_cons _ _
  | cons c s ih =>
    cases t with
    | nil => exact absurd h (List.not_lt_nil _)
    | cons d t =>
      rw [utf8_cons, utf8_cons]
      rcases List.cons_lt_cons_iff.1 h with hlt | ⟨rfl, hrest⟩
      · exact utf8EncodeChar_append_lt hlt _ _
      · exact List.append_left_lt (ih hrest)

/-- Bytes and characters are in the same order, so that it does not matter by which of them names
are sorted. -/
theorem utf8_lt_utf8 {s t : Text} : s.utf8 < t.utf8 ↔ s < t := by
  refine ⟨fun h => Decidable.byContradiction fun hnot => ?_, utf8_lt_of_lt⟩
  by_cases hlt : t < s
  · exact List.lt_asymm h (utf8_lt_of_lt hlt)
  · rw [List.le_antisymm hlt hnot] at h
    exact List.lt_irrefl _ h

theorem utf8_le_utf8 {s t : Text} : s.utf8 ≤ t.utf8 ↔ ¬ t < s :=
  not_congr utf8_lt_utf8

end Stencil.Text
