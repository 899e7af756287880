/-!
# Text

Templates, names and values are lists of characters. Offsets and sizes count the bytes
of the UTF-8 form, so every length that a caller sees is a sum of `Char.utf8Size`, and
a slice between two byte offsets recovers the middle of a concatenation.
-/
namespace Stencil

abbrev Text := List Char

namespace Text

/-- The number of bytes of the UTF-8 form. All offsets and sizes that a caller sees are counted this
way. -/
def bytes : Text → Nat
  | [] => 0
  | c :: rest => c.utf8Size + bytes rest

@[simp] theorem bytes_nil : bytes [] = 0 := rfl

@[simp] theorem bytes_cons (c : Char) (t : Text) : bytes (c :: t) = c.utf8Size + bytes t := rfl

@[simp] theorem bytes_append (s t : Text) : bytes (s ++ t) = bytes s + bytes t := by
  induction s with
  | nil => simp
  | cons c s ih => simp [ih, Nat.add_assoc]

/-- What follows the first `n` bytes. A character that begins among them is dropped as a whole. -/
def dropBytes : Nat → Text → Text
  | _, [] => []
  | n, c :: rest => if n = 0 then c :: rest else dropBytes (n - c.utf8Size) rest

@[simp] theorem dropBytes_zero (t : Text) : dropBytes 0 t = t := by
  cases t <;> simp [dropBytes]

@[simp] theorem dropBytes_bytes_append (s t : Text) : dropBytes (bytes s) (s ++ t) = t := by
  induction s with
  | nil => simp
  | cons c s ih =>
    have hc := c.utf8Size_pos
    have hn : c.utf8Size + bytes s ≠ 0 := by omega
    rw [bytes_cons, List.cons_append, dropBytes, if_neg hn, Nat.add_sub_cancel_left, ih]

/-- The first `n` bytes. No character is cut: one that begins among them is taken as a whole. -/
def takeBytes : Nat → Text → Text
  | _, [] => []
  | n, c :: rest => if n = 0 then [] else c :: takeBytes (n - c.utf8Size) rest

@[simp] theorem takeBytes_zero (t : Text) : takeBytes 0 t = [] := by
  cases t <;> simp [takeBytes]

@[simp] theorem takeBytes_bytes_append (s t : Text) : takeBytes (bytes s) (s ++ t) = s := by
  induction s with
  | nil => simp
  | cons c s ih =>
    have hc := c.utf8Size_pos
    have hn : c.utf8Size + bytes s ≠ 0 := by omega
    rw [bytes_cons, List.cons_append, takeBytes, if_neg hn, Nat.add_sub_cancel_left, ih]

/-- The text between two byte offsets, which is how the raw text of a substitution is taken from a
source. -/
def slice (start stop : Nat) (t : Text) : Text :=
  takeBytes (stop - start) (dropBytes start t)

@[simp] theorem slice_append (a b c : Text) :
    slice (bytes a) (bytes a + bytes b) (a ++ (b ++ c)) = b := by
  simp [slice]

/-- The parts between the occurrences of `sep`: the first one and the others. There is always a
first part, so that it is given apart. -/
def splitOn (sep : Char) : Text → Text × List Text
  | [] => ([], [])
  | c :: rest =>
    let (first, more) := splitOn sep rest
    if c = sep then ([], first :: more) else (c :: first, more)

/-- The text without `tail`, when it ends with it. Only one occurrence goes away, and the rest may
be empty. -/
def stripTail? (tail t : Text) : Option Text :=
  if tail.isSuffixOf t then some (t.take (t.length - tail.length)) else none

end Text

end Stencil
