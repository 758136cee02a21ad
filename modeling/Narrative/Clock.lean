import Narrative.Failure

/-!
# Time

An instant is a number of seconds since the epoch.  It is shown in whole milliseconds, or as a
calendar date and time of day in UTC.  Not every number of seconds can be shown.
-/

namespace Narrative

/-- A point in time. -/
structure Instant where
  /-- Seconds since the epoch. -/
  seconds : Float

namespace Instant

/-- The integer that a number is cut down to. -/
def cutDown (x : Float) : Except Failure Int :=
  if Decimal.isFinite x then .ok (Decimal.truncate x)
  else if Decimal.isNotANumber x then .error .undefined
  else .error .infinite

/-- Whole milliseconds since the epoch, the fraction dropped. -/
def millis (instant : Instant) : Except Failure Int := cutDown (instant.seconds * 1000.0)

/-- How many microseconds are in a second. -/
def microsPerSecond : Nat := 1000000

/-- Microseconds since the epoch.  The fraction of the second is multiplied as a binary number, and
the product is rounded to a whole number, a tie to the even one. -/
def micros (instant : Instant) : Int :=
  let units := Decimal.units (Decimal.magnitudeBits instant.seconds)
  let product :=
    Decimal.nearest (units % Decimal.unitsPerOne * microsPerSecond) Decimal.unitsPerOne
  let size : Int := units / Decimal.unitsPerOne * microsPerSecond +
    Decimal.roundDiv (Decimal.units product) Decimal.unitsPerOne
  if Decimal.signBit instant.seconds then -size else size

/-! ## Calendar -/

/-- A day of the calendar. -/
structure Date where
  /-- The year. -/
  year : Int
  /-- The month, from one. -/
  month : Int
  /-- The day of the month, from one. -/
  day : Int
deriving DecidableEq, Repr

/-- The day that lies a number of days after the first of January 1970.  Years are counted from
March, so that the leap day is the last day of a year; 400 years have 146097 days. -/
def Date.ofDays (days : Int) : Date :=
  let shifted := days + 719468
  let era := shifted.fdiv 146097
  let dayOfEra := shifted.fmod 146097
  let yearOfEra := (dayOfEra - dayOfEra / 1460 + dayOfEra / 36524 - dayOfEra / 146096) / 365
  let dayOfYear := dayOfEra - (365 * yearOfEra + yearOfEra / 4 - yearOfEra / 100)
  let shiftedMonth := (5 * dayOfYear + 2) / 153
  let month := if shiftedMonth < 10 then shiftedMonth + 3 else shiftedMonth - 9
  { year := yearOfEra + era * 400 + (if month ≤ 2 then 1 else 0)
    month
    day := dayOfYear - (153 * shiftedMonth + 2) / 5 + 1 }

/-- A number with leading zeros up to a width. -/
def padded (width : Nat) (n : Int) : List Char :=
  let digits := Nat.toDigits 10 n.natAbs
  List.replicate (width - digits.length) '0' ++ digits

/-- Date and time of day that lie a number of microseconds after the epoch; the fraction of the
second is left out when it is zero. -/
def dateText (micros : Int) : List Char :=
  let seconds := micros.fdiv microsPerSecond
  let fraction := micros.fmod microsPerSecond
  let date := Date.ofDays (seconds.fdiv 86400)
  let ofDay := seconds.fmod 86400
  padded 4 date.year ++ '-' :: padded 2 date.month ++ '-' :: padded 2 date.day ++
    'T' :: padded 2 (ofDay / 3600) ++ ':' :: padded 2 (ofDay / 60 % 60) ++
    ':' :: padded 2 (ofDay % 60) ++
    (if fraction = 0 then [] else '.' :: padded 6 fraction) ++ "+00:00".toList

/-- The year of a time; the calendar has the years from 1 to 9999. -/
def year (micros : Int) : Int :=
  (Date.ofDays ((micros.fdiv microsPerSecond).fdiv 86400)).year

/-- Whether years are counted that far, from 1900 in 32 bits. -/
def isCountedYear (year : Int) : Bool := -2 ^ 31 ≤ year - 1900 && year - 1900 < 2 ^ 31

/-- Date and time of day, if the calendar has them. -/
def text (instant : Instant) : Except Failure String :=
  let micros := instant.micros
  let seconds := micros.fdiv microsPerSecond
  if Decimal.isNotANumber instant.seconds then .error .undefinedTime
  else if !Decimal.isFinite instant.seconds ∨ seconds < -2 ^ 63 ∨ 2 ^ 63 ≤ seconds then
    .error .timeTooLarge
  else if !isCountedYear (year micros) then .error .timeOutOfReach
  else if 1 ≤ year micros ∧ year micros ≤ 9999 then .ok (String.ofList (dateText micros))
  else .error (.yearOutOfRange (year micros))

end Instant

end Narrative
