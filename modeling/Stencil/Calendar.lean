import Stencil.Text

/-!
# Dates and times

Dates of the Gregorian calendar, times of the day and offsets from universal time, with two
ways to write them: the plain form, from the largest unit to the smallest, and the form of
mail headers, which has no room for years before 1900 and for seconds of an offset.
-/
namespace Stencil

structure Date where
  year : Int
  month : Nat
  day : Nat
deriving DecidableEq, Repr

structure ClockTime where
  hour : Nat
  minute : Nat
  second : Nat
  nanosecond : Nat
deriving DecidableEq, Repr

/-- An offset from universal time, whose parts have the same sign. Its seconds are what the mail
header form cannot write. -/
structure UtcOffset where
  hours : Int
  minutes : Int
  seconds : Int
deriving DecidableEq, Repr

namespace Calendar

/-- The decimal digits of a number, at least `width` of them, with zeros in front where there are
fewer. -/
def padded (width n : Nat) : Text :=
  let digits := Nat.toDigits 10 n
  List.replicate (width - digits.length) '0' ++ digits

def yearText (year : Int) : Text :=
  (if year < 0 then ['-'] else []) ++ padded 4 year.natAbs

def dateText (date : Date) : Text :=
  yearText date.year ++ '-' :: padded 2 date.month ++ '-' :: padded 2 date.day

/-- Nine digits after the point, without the zeros at the end but for the first digit, which is
always there. -/
def fractionText (nanosecond : Nat) : Text :=
  let digits := padded 9 nanosecond
  digits.take 1 ++ ((digits.drop 1).reverse.dropWhile (· == '0')).reverse

def timeText (time : ClockTime) : Text :=
  Nat.toDigits 10 time.hour ++ ':' :: padded 2 time.minute ++ ':' :: padded 2 time.second ++
    '.' :: fractionText time.nanosecond

def offsetSign (offset : UtcOffset) : Char :=
  if offset.hours < 0 ∨ offset.minutes < 0 ∨ offset.seconds < 0 then '-' else '+'

def offsetText (offset : UtcOffset) : Text :=
  offsetSign offset :: padded 2 offset.hours.natAbs ++ ':' :: padded 2 offset.minutes.natAbs ++
    ':' :: padded 2 offset.seconds.natAbs

def momentText (date : Date) (time : ClockTime) : Text :=
  dateText date ++ ' ' :: timeText time

/-- The number of days before the month in a year that begins in March and ends with February,
modulo seven and from a fixed day on. -/
def monthShift (month : Nat) : Int :=
  [0, 3, 2, 5, 0, 3, 5, 1, 4, 6, 2, 4].getD (month - 1) 0

/-- The day of the week, counted from Sunday. January and February count as months of the year
before, so that a leap day comes last. -/
def weekday (date : Date) : Nat :=
  let year := if date.month < 3 then date.year - 1 else date.year
  ((year + year.fdiv 4 - year.fdiv 100 + year.fdiv 400 + monthShift date.month + date.day) %
    7).toNat

def weekdayNames : List String := ["Sun", "Mon", "Tue", "Wed", "Thu", "Fri", "Sat"]

def monthNames : List String :=
  ["Jan", "Feb", "Mar", "Apr", "May", "Jun", "Jul", "Aug", "Sep", "Oct", "Nov", "Dec"]

/-- The mail header form, where there is one: it has no years before 1900, and no seconds in an
offset. -/
def mailText? (date : Date) (time : ClockTime) (offset : UtcOffset) : Option Text :=
  if date.year < 1900 ∨ offset.seconds ≠ 0 then none
  else some <|
    (weekdayNames.getD (weekday date) "").toList ++ ',' :: ' ' :: padded 2 date.day ++
      ' ' :: (monthNames.getD (date.month - 1) "").toList ++ ' ' :: yearText date.year ++
      ' ' :: padded 2 time.hour ++ ':' :: padded 2 time.minute ++ ':' :: padded 2 time.second ++
      ' ' :: offsetSign offset :: padded 2 offset.hours.natAbs ++ padded 2 offset.minutes.natAbs

/-- A moment at an offset: the mail header form, or else the plain form with the offset after it. -/
def offsetMomentText (date : Date) (time : ClockTime) (offset : UtcOffset) : Text :=
  (mailText? date time offset).getD (momentText date time ++ ' ' :: offsetText offset)

/-- A moment in universal time: the mail header form with the offset zero, or else the plain
form. -/
def utcMomentText (date : Date) (time : ClockTime) : Text :=
  (mailText? date time ⟨0, 0, 0⟩).getD (momentText date time ++ [' ', '+', '0', '0'])

end Calendar

end Stencil
