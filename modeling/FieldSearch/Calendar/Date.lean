/-!
Days of the proleptic Gregorian calendar and their numbers, counted from 1970-01-01. The count works
on years that begin in March, so that the day a leap year adds comes last, and on the cycle of 400
years, after which the calendar repeats.
-/

namespace FieldSearch.Calendar

structure Date where
  year : Int
  month : Nat
  day : Nat
  deriving DecidableEq, Repr

def isLeapYear (year : Int) : Bool :=
  year % 4 == 0 && (year % 100 != 0 || year % 400 == 0)

def daysInMonth (year : Int) (month : Nat) : Nat :=
  if month = 2 then (if isLeapYear year then 29 else 28)
  else if month = 4 ∨ month = 6 ∨ month = 9 ∨ month = 11 then 30
  else 31

/-- The years that a date may have. -/
def firstYear : Int :=
  -262143

def lastYear : Int :=
  262142

def daysPerCycle : Nat :=
  146097

/-- From the first of March of year zero to 1970-01-01. -/
def daysToEpoch : Int :=
  719468

namespace Date

/-- The date exists and its year is one of those supported. -/
def IsValid (date : Date) : Prop :=
  firstYear ≤ date.year ∧ date.year ≤ lastYear ∧ 1 ≤ date.month ∧ date.month ≤ 12 ∧
    1 ≤ date.day ∧ date.day ≤ daysInMonth date.year date.month

instance (date : Date) : Decidable date.IsValid := by
  unfold IsValid
  infer_instance

def of? (year : Int) (month day : Nat) : Option Date :=
  let date : Date := ⟨year, month, day⟩
  if date.IsValid then some date else none

/-- The number of the day, 0 for 1970-01-01. -/
def dayNumber (date : Date) : Int :=
  let year := if date.month ≤ 2 then date.year - 1 else date.year
  let yearOfCycle := (year % 400).toNat
  let month := (date.month + 9) % 12
  let dayOfYear := (153 * month + 2) / 5 + date.day - 1
  let dayOfCycle := yearOfCycle * 365 + yearOfCycle / 4 - yearOfCycle / 100 + dayOfYear
  year / 400 * daysPerCycle + dayOfCycle - daysToEpoch

/-- The day with a number. -/
def ofDayNumber (number : Int) : Date :=
  let shifted := number + daysToEpoch
  let dayOfCycle := (shifted % daysPerCycle).toNat
  let century := min (dayOfCycle / 36524) 3
  let dayOfCentury := dayOfCycle - century * 36524
  let dayOfFour := dayOfCentury % 1461
  let yearOfFour := min (dayOfFour / 365) 3
  let dayOfYear := dayOfFour - yearOfFour * 365
  let month := (5 * dayOfYear + 2) / 153
  let day := dayOfYear - (153 * month + 2) / 5 + 1
  let year := shifted / daysPerCycle * 400 + century * 100 + dayOfCentury / 1461 * 4 + yearOfFour
  if month < 10 then ⟨year, month + 3, day⟩ else ⟨year + 1, month - 9, day⟩

end Date

/-- A number with zeros in front, up to a width. -/
def padded (width n : Nat) : String :=
  let digits := Nat.toDigits 10 n
  String.ofList (List.replicate (width - digits.length) '0' ++ digits)

/-- Years have four digits. Earlier and later ones have a sign, the later ones more digits. -/
def yearText (year : Int) : String :=
  if year < 0 then "-" ++ padded 4 year.natAbs
  else if year ≤ 9999 then padded 4 year.natAbs
  else "+" ++ padded 5 year.natAbs

def Date.text (date : Date) : String :=
  yearText date.year ++ "-" ++ padded 2 date.month ++ "-" ++ padded 2 date.day

end FieldSearch.Calendar
