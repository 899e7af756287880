import Stencil.Text
import Stencil.Unprintable

/-!
# Quoted text

A text between double quotes, in which quotes, backslashes, line breaks and every character
that cannot be shown by itself are written as escapes.
-/
namespace Stencil.Quoted

/-- The hexadecimal escape of a character, without zeros in front. -/
def hexEscape (c : Char) : Text :=
  '\\' :: 'u' :: '{' :: Nat.toDigits 16 c.toNat ++ ['}']

def encodeChar (c : Char) : Text :=
  if c = '\x00' then ['\\', '0']
  else if c = '\t' then ['\\', 't']
  else if c = '\r' then ['\\', 'r']
  else if c = '\n' then ['\\', 'n']
  else if c = '"' ∨ c = '\\' then ['\\', c]
  else if isUnprintable c then hexEscape c
  else [c]

def encode (t : Text) : Text :=
  '"' :: t.flatMap encodeChar ++ ['"']

end Stencil.Quoted
