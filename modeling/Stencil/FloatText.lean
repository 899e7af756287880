import Stencil.Decimal
import Stencil.Text

/-!
# Float text

A float is read from its bits and written with the fewest digits that identify it. A format
says where the positional notation ends and how the rest is spelt.
-/
namespace Stencil

/-- The layout of the bits of a float: sign, exponent, fraction. The two widths and the bias differ
from size to size. -/
structure FloatLayout where
  exponentBits : Nat
  fractionBits : Nat

namespace FloatLayout

def single : FloatLayout := ⟨8, 23⟩

def double : FloatLayout := ⟨11, 52⟩

end FloatLayout

inductive FloatValue
  | nan
  | infinite (negative : Bool)
  | zero (negative : Bool)
  | finite (negative : Bool) (magnitude : Dyadic)
deriving DecidableEq, Repr

/-- Reads the bits of a float: an exponent of ones only stands for no finite number, and one of
zeros only for a number without the leading bit. -/
def FloatLayout.decode (layout : FloatLayout) (bits : Nat) : FloatValue :=
  let fraction := bits % Nat.pow 2 layout.fractionBits
  let exponent := bits / Nat.pow 2 layout.fractionBits % Nat.pow 2 layout.exponentBits
  let negative := bits / Nat.pow 2 (layout.fractionBits + layout.exponentBits) % 2 == 1
  let least : Int := 2 - Nat.pow 2 (layout.exponentBits - 1) - layout.fractionBits
  if exponent = Nat.pow 2 layout.exponentBits - 1 then
    if fraction = 0 then .infinite negative else .nan
  else if exponent = 0 then
    if fraction = 0 then .zero negative else .finite negative ⟨fraction, least, false⟩
  else
    .finite negative ⟨Nat.pow 2 layout.fractionBits + fraction, least + exponent - 1,
      fraction == 0 && 1 < exponent⟩

/-- How floats are written, given the shortest decimal that stands for them. -/
structure FloatFormat where
  tie : Tie
  /-- The least and the greatest decimal exponent that are written positionally. There are no
  bounds when it is missing. -/
  positional : Option (Int × Int)
  /-- A whole number ends in `.0`, so that it can be told from an integer. -/
  pointZero : Bool

namespace FloatFormat

/-- Positional notation for every number, whole numbers without a point, as scalars are written. -/
def display : FloatFormat := ⟨.up, none, false⟩

/-- Numbers of a JSON text: always with a point or an exponent, which has its sign and comes in only
for very large or small numbers. -/
def json : FloatFormat := ⟨.toEven, some (-5, 15), true⟩

/-- The digits of a decimal, without the point, which is put in later. -/
def digits (d : Decimal) : Text :=
  Nat.toDigits 10 d.digits

/-- The exponent of the first digit, as the notation with an exponent writes it. -/
def leadingExponent (d : Decimal) : Int :=
  d.exponent + (digits d).length - 1

def writePositional (pointZero : Bool) (d : Decimal) : Text :=
  let ds := digits d
  let point := d.exponent + ds.length
  if 0 ≤ d.exponent then
    ds ++ List.replicate d.exponent.toNat '0' ++ (if pointZero then ['.', '0'] else [])
  else if 0 < point then
    ds.take point.toNat ++ '.' :: ds.drop point.toNat
  else
    '0' :: '.' :: (List.replicate (-point).toNat '0' ++ ds)

def writeScientific (d : Decimal) : Text :=
  let ds := digits d
  let exponent := leadingExponent d
  let fraction := if ds.length ≤ 1 then [] else '.' :: ds.drop 1
  let sign := if exponent < 0 then '-' else '+'
  ds.take 1 ++ fraction ++ 'e' :: sign :: Nat.toDigits 10 exponent.natAbs

def writeDecimal (format : FloatFormat) (d : Decimal) : Text :=
  match format.positional with
  | none => writePositional format.pointZero d
  | some (least, greatest) =>
    if least ≤ leadingExponent d ∧ leadingExponent d ≤ greatest then
      writePositional format.pointZero d
    else
      writeScientific d

def write (format : FloatFormat) (value : FloatValue) : Text :=
  let signed (negative : Bool) (t : Text) : Text := if negative then '-' :: t else t
  match value with
  | .nan => "NaN".toList
  | .infinite negative => signed negative "inf".toList
  | .zero negative => signed negative (if format.pointZero then "0.0" else "0").toList
  | .finite negative magnitude =>
    signed negative (format.writeDecimal (Decimal.shortest format.tie magnitude))

end FloatFormat

end Stencil
