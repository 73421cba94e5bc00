/-!
Decimal digits at the front of a text. ASCII digits alone count.
-/

namespace FieldSearch.Calendar

def digitValue (c : Char) : Nat :=
  c.toNat - '0'.toNat

/-- The number that digits write. -/
def numberOf (digits : List Char) : Nat :=
  digits.foldl (fun n c => n * 10 + digitValue c) 0

/-- The digits at the front of a text, no more than `most`. -/
def leadingDigits (most : Nat) (s : List Char) : List Char :=
  (s.take most).takeWhile Char.isDigit

/-- A number of one to `most` digits. -/
def number? (most : Nat) (s : List Char) : Option (Nat × List Char) :=
  let digits := leadingDigits most s
  if digits.isEmpty then none else some (numberOf digits, s.drop digits.length)

/-- A number of exactly `width` digits. -/
def fixedNumber? (width : Nat) (s : List Char) : Option (Nat × List Char) :=
  let digits := leadingDigits width s
  if digits.length = width then some (numberOf digits, s.drop width) else none

/-- The rest after one of these characters. -/
def after? (p : Char → Bool) : List Char → Option (List Char)
  | [] => none
  | c :: r => if p c then some r else none

end FieldSearch.Calendar
