import FieldSearch.Decimal.Binary64

/-!
Numbers of documents. Whole numbers of 64 bits are kept as they are, all others become the number of
53 bits precision that their digits give: at most as many digits count as fit into 64 bits, and the
power of ten is applied by one multiplication or division after another.
-/

namespace FieldSearch.Json

open Decimal (Binary64)

inductive Number
  | integer (value : Int)
  | real (negative : Bool) (magnitude : Binary64)
  deriving DecidableEq, Repr

/-- The parts of a number as written. An exponent has a sign, `true` for a negative one. -/
structure NumberText where
  negative : Bool
  whole : List Char
  fraction : List Char
  exponent : Option (Bool × List Char)
  deriving DecidableEq, Repr

namespace Number

/-- The bound below which digits are collected. -/
def bound : Nat :=
  UInt64.size

/-- Collects digits as long as the result stays below the bound. Returns the number and the digits
that did not fit. -/
def collect : Nat → List Char → Nat × List Char
  | n, [] => (n, [])
  | n, c :: r =>
    let next := n * 10 + (c.toNat - '0'.toNat)
    if next < bound then collect next r else (n, c :: r)

/-- `x * 10 ^ exponent`, by powers of ten up to the 308th. -/
def scale? (x : Binary64) (exponent : Int) : Option Binary64 :=
  if exponent.natAbs ≤ 308 then
    (Binary64.powerOfTen? exponent.natAbs).bind fun power =>
      if 0 ≤ exponent then x.multiply? power else x.divide? power
  else if x.mantissa = 0 then some x
  else if h : exponent < 0 then
    ((Binary64.powerOfTen? 308).bind x.divide?).bind fun y => scale? y (exponent + 308)
  else none
termination_by exponent.natAbs
decreasing_by omega

/-- The greatest exponent that is read as a number. -/
def greatestExponent : Nat :=
  2147483647

/-- The number that a text denotes, unless it is too large. -/
def ofText? (text : NumberText) : Option Number :=
  let (whole, unread) := collect 0 text.whole
  let integral := text.fraction.isEmpty && text.exponent.isNone
  let real (x : Option Binary64) : Option Number := x.map (.real text.negative)
  if integral && unread.isEmpty && !(text.negative && (whole = 0 || bound / 2 < whole)) then
    some (.integer (if text.negative then -(whole : Int) else whole))
  else
    let (digits, dropped) := collect whole text.fraction
    let places : Int := unread.length - ((text.fraction.length : Int) - dropped.length)
    match text.exponent with
    | none => real ((Binary64.nearest? digits 1).bind fun x => scale? x places)
    | some (negative, exponent) =>
      let n := (collect 0 exponent).1
      if greatestExponent < n then
        if digits ≠ 0 && !negative then none else real (some ⟨0, 0⟩)
      else
        real ((Binary64.nearest? digits 1).bind fun x =>
          scale? x (if negative then places - n else places + n))

/-- Reals have a point or an exponent. -/
def style : Decimal.Style :=
  ⟨-5, 15⟩

def text : Number → String
  | integer value => toString value
  | real negative magnitude =>
    let (digits, grid) := magnitude.shortest
    (if negative then "-" else "") ++ style.text digits grid

end Number

end FieldSearch.Json
