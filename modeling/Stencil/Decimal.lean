/-!
# Shortest decimals

A binary fraction `m · 2 ^ e` stands for every real number that is rounded to it. Its shortest
decimal has the fewest digits among the decimals that stand for it in the same way, and it is
the nearest of those. The search compares exact natural numbers.
-/
namespace Stencil

/-- The number `mantissa · 2 ^ exponent`, with what has to be known about its neighbours to find the
decimals that are rounded to it. -/
structure Dyadic where
  mantissa : Nat
  exponent : Int
  /-- The next smaller float is half as far away as the next larger one, which is so right above a
  power of two. -/
  narrow : Bool
deriving DecidableEq, Repr

/-- The number `digits · 10 ^ exponent`. The same number has many such forms, and `strip` takes the
shortest. -/
structure Decimal where
  digits : Nat
  exponent : Int
deriving DecidableEq, Repr

/-- Which of two equally near decimals is taken. Writers of floats agree on all other numbers. -/
inductive Tie
  | up
  | toEven
deriving DecidableEq, Repr

/-- A fraction of natural numbers, with the two ends of the interval around it that is rounded to
it. -/
structure RoundingInterval where
  low : Nat
  value : Nat
  high : Nat
  unit : Nat
  /-- The ends of the interval belong to it, which is so when the mantissa is even. -/
  closed : Bool

namespace Dyadic

/-- The numbers that are rounded to `x`, counted in quarters of the distance to its neighbour so
that all bounds are whole. -/
def interval (x : Dyadic) : RoundingInterval where
  low := (4 * x.mantissa - if x.narrow then 1 else 2) * Nat.pow 2 (x.exponent - 2).toNat
  value := 4 * x.mantissa * Nat.pow 2 (x.exponent - 2).toNat
  high := (4 * x.mantissa + 2) * Nat.pow 2 (x.exponent - 2).toNat
  unit := Nat.pow 2 (2 - x.exponent).toNat
  closed := x.mantissa % 2 == 0

end Dyadic

namespace RoundingInterval

/-- The interval counted in steps of `10 ^ step`, as exact fractions. One of the two powers of ten
is one. -/
def onGrid (x : RoundingInterval) (step : Int) : RoundingInterval where
  low := x.low * Nat.pow 10 (-step).toNat
  value := x.value * Nat.pow 10 (-step).toNat
  high := x.high * Nat.pow 10 (-step).toNat
  unit := x.unit * Nat.pow 10 step.toNat
  closed := x.closed

def contains (x : RoundingInterval) (n : Nat) : Bool :=
  if x.closed then x.low ≤ n * x.unit && n * x.unit ≤ x.high
  else x.low < n * x.unit && n * x.unit < x.high

/-- The multiple of the unit that is nearest to the value, among those in the interval. A grid that
is too coarse has none. -/
def nearest? (tie : Tie) (x : RoundingInterval) : Option Nat :=
  let below := x.value / x.unit
  let above := below + 1
  match x.contains below, x.contains above with
  | false, false => none
  | true, false => some below
  | false, true => some above
  | true, true =>
    let middle := (2 * below + 1) * x.unit
    if 2 * x.value < middle then some below
    else if middle < 2 * x.value then some above
    else match tie with
      | .up => some above
      | .toEven => some (if below % 2 = 0 then below else above)

/-- The number of decimal digits before the point, or minus the number of zeros after it. It tells
which grid has how many digits. -/
def magnitude (x : RoundingInterval) : Int :=
  if x.unit ≤ x.value then (Nat.toDigits 10 (x.value / x.unit)).length
  else 1 - (Nat.toDigits 10 ((x.unit - 1) / x.value)).length

end RoundingInterval

namespace Decimal

/-- Moves zeros at the end of the digits into the exponent, at most as many as the fuel allows. -/
def strip (fuel : Nat) (d : Decimal) : Decimal :=
  match fuel with
  | 0 => d
  | fuel + 1 =>
    if d.digits ≠ 0 ∧ d.digits % 10 = 0 then strip fuel ⟨d.digits / 10, d.exponent + 1⟩ else d

/-- The exact value of a binary fraction: a negative power of two is a power of five with the point
moved. -/
def exact (x : Dyadic) : Decimal :=
  ⟨x.mantissa * Nat.pow 2 x.exponent.toNat * Nat.pow 5 (-x.exponent).toNat, min x.exponent 0⟩

/-- The shortest decimal that stands for `x`. Grids with more and more digits are tried, and
seventeen digits suffice for a double. -/
def shortest (tie : Tie) (x : Dyadic) : Decimal :=
  let interval := x.interval
  let magnitude := interval.magnitude
  let hit := (List.range 17).findSome? fun n =>
    let step := magnitude - (n + 1 : Nat)
    ((interval.onGrid step).nearest? tie).map fun digits => (⟨digits, step⟩ : Decimal)
  (hit.getD (exact x)).strip 20

end Decimal

end Stencil
