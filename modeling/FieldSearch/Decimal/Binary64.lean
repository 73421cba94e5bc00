/-!
Numbers of the binary format with 53 bits of precision, as exact pairs of naturals: the value nearest
to a quotient, products and quotients, and the shortest decimal text that is nearer to the number than
to any other. Signs are kept elsewhere.
-/

namespace FieldSearch.Decimal

/-- The number `mantissa * 2 ^ exponent`. -/
structure Binary64 where
  mantissa : Nat
  exponent : Int
  deriving DecidableEq, Repr

namespace Binary64

def least : Int :=
  -1074

def greatest : Int :=
  971

/-- The least mantissa of numbers that have all 53 bits. -/
def fullMantissa : Nat :=
  4503599627370496

/-- A power with the part of its exponent that is not negative. -/
def power (base : Nat) (exponent : Int) : Nat :=
  Nat.pow base exponent.toNat

/-- The quotient, rounded to the nearest integer, and to the even one of two. -/
def roundedQuotient (num den : Nat) : Nat :=
  let quotient := num / den
  let twice := 2 * (num % den)
  if den < twice ∨ (twice = den ∧ quotient % 2 = 1) then quotient + 1 else quotient

/-- The number nearest to `num / den`, unless that is too large. -/
def nearest? (num den : Nat) : Option Binary64 :=
  if num = 0 then some ⟨0, 0⟩
  else
    let low : Int := (Nat.log2 num : Int) - Nat.log2 den - 53
    let scaled (exponent : Int) : Nat × Nat :=
      (num * power 2 (-exponent), den * power 2 exponent)
    let (n, d) := scaled low
    let exponent := max (if n / d < 2 * fullMantissa then low else low + 1) least
    let (n, d) := scaled exponent
    let mantissa := roundedQuotient n d
    let number : Binary64 :=
      if mantissa = 2 * fullMantissa then ⟨fullMantissa, exponent + 1⟩ else ⟨mantissa, exponent⟩
    if greatest < number.exponent then none else some number

def multiply? (x y : Binary64) : Option Binary64 :=
  let exponent := x.exponent + y.exponent
  nearest? (x.mantissa * y.mantissa * power 2 exponent) (power 2 (-exponent))

def divide? (x y : Binary64) : Option Binary64 :=
  let exponent := x.exponent - y.exponent
  nearest? (x.mantissa * power 2 exponent) (y.mantissa * power 2 (-exponent))

/-- The number nearest to a power of ten. -/
def powerOfTen? (exponent : Nat) : Option Binary64 :=
  nearest? (power 10 exponent) 1

/-- `digits * 10 ^ grid` against `quarters * 2 ^ exponent / 4`, both multiplied by what makes them
whole. -/
def compared (digits : Nat) (grid : Int) (quarters : Nat) (exponent : Int) : Nat × Nat :=
  (digits * power 10 grid * power 2 (2 - exponent),
    quarters * power 2 (exponent - 2) * power 10 (-grid))

/-- Whether a decimal is nearer to the number than to any other; of two equally near numbers the one
with the even mantissa is meant. -/
def readsBack (x : Binary64) (digits : Nat) (grid : Int) : Bool :=
  let below := if x.mantissa = fullMantissa ∧ least < x.exponent then 1 else 2
  let (a, low) := compared digits grid (4 * x.mantissa - below) x.exponent
  let (b, high) := compared digits grid (4 * x.mantissa + 2) x.exponent
  if x.mantissa % 2 = 0 then low ≤ a && b ≤ high else low < a && b < high

/-- The decimals next to the number on the coarsest grid of powers of ten that has one which reads
back, `steps` above the finest one; of two such decimals the nearer. -/
def shortestFrom (x : Binary64) : Nat → Nat × Int
  | 0 => (0, 0)
  | steps + 1 =>
    let grid : Int := (steps : Int) - 345
    let (unit, value) := compared 1 grid (4 * x.mantissa) x.exponent
    let digits := value / unit
    let low := 0 < digits && readsBack x digits grid
    let high := readsBack x (digits + 1) grid
    if low && high then
      if 2 * (value % unit) ≤ unit then (digits, grid) else (digits + 1, grid)
    else if low then (digits, grid)
    else if high then (digits + 1, grid)
    else shortestFrom x steps

/-- Decimal digits and the power of ten of the last one. -/
def shortest (x : Binary64) : Nat × Int :=
  if x.mantissa = 0 then (0, 0) else shortestFrom x 655

end Binary64

/-- How decimals are written: positional while the exponent of the first digit lies between these
bounds, with at least one digit on either side of the point. -/
structure Style where
  leastPositional : Int
  mostPositional : Int

def zeros (n : Nat) : List Char :=
  List.replicate n '0'

/-- `digits * 10 ^ grid` in a style. -/
def Style.text (style : Style) (digits : Nat) (grid : Int) : String :=
  let ds := Nat.toDigits 10 digits
  let first := (ds.length : Int) - 1 + grid
  String.ofList <|
    if style.leastPositional ≤ first ∧ first ≤ style.mostPositional then
      if 0 ≤ grid then ds ++ zeros grid.toNat ++ ['.', '0']
      else if 0 ≤ first then ds.take (first.toNat + 1) ++ '.' :: ds.drop (first.toNat + 1)
      else '0' :: '.' :: zeros ((-first).toNat - 1) ++ ds
    else
      let fraction := if ds.length = 1 then [] else '.' :: ds.drop 1
      let sign := if first < 0 then '-' else '+'
      ds.take 1 ++ fraction ++ 'e' :: sign :: Nat.toDigits 10 first.natAbs

end FieldSearch.Decimal
