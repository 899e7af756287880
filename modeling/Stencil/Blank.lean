import Stencil.Text

/-!
# Blank characters

The characters that count as white space are those with the Unicode property
`White_Space`. Trimming removes them from the ends of a text.
-/
namespace Stencil

/-- The inclusive code point ranges of the property `White_Space`, in ascending order. The
characters in them are what trimming removes. -/
def blankRanges : List (Nat × Nat) :=
  [(0x09, 0x0D), (0x20, 0x20), (0x85, 0x85), (0xA0, 0xA0), (0x1680, 0x1680), (0x2000, 0x200A),
   (0x2028, 0x2029), (0x202F, 0x202F), (0x205F, 0x205F), (0x3000, 0x3000)]

def isBlank (c : Char) : Bool :=
  blankRanges.any fun (low, high) => low ≤ c.toNat && c.toNat ≤ high

namespace Text

def trimStart (t : Text) : Text :=
  t.dropWhile isBlank

def trimEnd (t : Text) : Text :=
  (t.reverse.dropWhile isBlank).reverse

/-- The blank characters that `trimEnd` removes, so that both together are the text again. -/
def blankTail (t : Text) : Text :=
  (t.reverse.takeWhile isBlank).reverse

def trim (t : Text) : Text :=
  trimEnd (trimStart t)

def isAllBlank (t : Text) : Bool :=
  t.all isBlank

theorem trimEnd_append_blankTail (t : Text) : trimEnd t ++ blankTail t = t := by
  rw [trimEnd, blankTail, ← List.reverse_append, List.takeWhile_append_dropWhile,
    List.reverse_reverse]

theorem isAllBlank_blankTail (t : Text) : t.blankTail.isAllBlank = true := by
  rw [isAllBlank, blankTail, List.all_reverse, List.all_takeWhile]

theorem trimEnd_isPrefix (t : Text) : t.trimEnd <+: t :=
  ⟨t.blankTail, trimEnd_append_blankTail t⟩

theorem length_trimEnd_le (t : Text) : t.trimEnd.length ≤ t.length :=
  (trimEnd_isPrefix t).length_le

theorem length_trimStart_le (t : Text) : t.trimStart.length ≤ t.length :=
  (List.dropWhile_sublist isBlank).length_le

theorem length_trim_le (t : Text) : t.trim.length ≤ t.length :=
  Nat.le_trans (length_trimEnd_le _) (length_trimStart_le _)

end Text

end Stencil
