import FieldSearch.Calendar.Digits
import FieldSearch.Calendar.Instant

/-!
Instants in the form of RFC 3339: a date, one of `T`, `t` and a blank, a time of day, a fraction of
which nine digits count, and an offset from UTC.
-/

namespace FieldSearch.Calendar

namespace Rfc3339

def isDivider (c : Char) : Bool :=
  c == 'T' || c == 't' || c == ' '

/-- Nanoseconds of a fraction, of which nine digits count. -/
def nanosOf (digits : List Char) : Nat :=
  numberOf ((digits ++ List.replicate 9 '0').take 9)

/-- A fraction, if there is a point; then it must have a digit. -/
def fraction? (s : List Char) : Option (Nat × List Char) :=
  match s with
  | '.' :: r =>
    let digits := r.takeWhile Char.isDigit
    if digits.isEmpty then none else some (nanosOf digits, r.dropWhile Char.isDigit)
  | _ => some (0, s)

/-- The offset in seconds at the end of a text. -/
def offset? (s : List Char) : Option Int :=
  match s with
  | ['Z'] | ['z'] => some 0
  | sign :: r => do
    let (hours, r) ← fixedNumber? 2 r
    let r ← after? (· == ':') r
    let (minutes, r) ← fixedNumber? 2 r
    if r.isEmpty && hours ≤ 23 && minutes ≤ 59 then
      let seconds : Int := hours * 3600 + minutes * 60
      if sign = '+' then some seconds
      else if sign = '-' ∨ sign = '−' then some (-seconds)
      else none
    else none
  | [] => none

/-- The local time that a text shows, with its offset. -/
def read (s : List Char) : Option (LocalTime × Int) := do
  let (year, s) ← fixedNumber? 4 s
  let s ← after? (· == '-') s
  let (month, s) ← fixedNumber? 2 s
  let s ← after? (· == '-') s
  let (day, s) ← fixedNumber? 2 s
  let s ← after? isDivider s
  let (hour, s) ← fixedNumber? 2 s
  let s ← after? (· == ':') s
  let (minute, s) ← fixedNumber? 2 s
  let s ← after? (· == ':') s
  let (second, s) ← fixedNumber? 2 s
  let (nanos, s) ← fraction? s
  let offset ← offset? s
  let date ← Date.of? year month day
  let clock ← ClockTime.of? hour minute second nanos
  return (⟨date, clock⟩, offset)

/-- The instant that a text denotes. -/
def instant? (s : List Char) : Option Instant :=
  (read s).map fun (time, offset) => ⟨time.seconds - offset, time.clock.nanos⟩

end Rfc3339

end FieldSearch.Calendar
