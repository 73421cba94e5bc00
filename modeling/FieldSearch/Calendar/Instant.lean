import FieldSearch.Calendar.Date

/-!
Times of day, local times and instants. A time of day counts whole seconds and nanoseconds; during a
leap second the nanoseconds go on past a whole second, so the second before it is kept and printed one
higher. An offset from UTC shifts the seconds alone.
-/

namespace FieldSearch.Calendar

def secondsPerDay : Nat :=
  86400

def nanosPerSecond : Nat :=
  1000000000

structure ClockTime where
  seconds : Nat
  nanos : Nat
  deriving DecidableEq, Repr

/-- What a calendar and a clock show together. -/
structure LocalTime where
  date : Date
  clock : ClockTime
  deriving DecidableEq, Repr

/-- A point in time: seconds since 1970-01-01T00:00:00 in UTC, and nanoseconds. -/
structure Instant where
  seconds : Int
  nanos : Nat
  deriving DecidableEq, Repr

namespace ClockTime

def midnight : ClockTime :=
  ⟨0, 0⟩

/-- Second 60 is a leap second. -/
def of? (hour minute second nanos : Nat) : Option ClockTime :=
  if hour ≤ 23 ∧ minute ≤ 59 ∧ second ≤ 60 then
    if second = 60 then some ⟨hour * 3600 + minute * 60 + 59, nanosPerSecond + nanos⟩
    else some ⟨hour * 3600 + minute * 60 + second, nanos⟩
  else none

/-- The time of day to the second. -/
def text (clock : ClockTime) : String :=
  let second := clock.seconds % 60 + clock.nanos / nanosPerSecond
  padded 2 (clock.seconds / 3600) ++ ":" ++ padded 2 (clock.seconds / 60 % 60) ++ ":"
    ++ padded 2 second

/-- The fraction of the second, in as few groups of three digits as show it exactly. -/
def fractionText (clock : ClockTime) : String :=
  let nanos := clock.nanos % nanosPerSecond
  if nanos = 0 then ""
  else if nanos % 1000000 = 0 then "." ++ padded 3 (nanos / 1000000)
  else if nanos % 1000 = 0 then "." ++ padded 6 (nanos / 1000)
  else "." ++ padded 9 nanos

end ClockTime

namespace LocalTime

/-- Seconds since the first of January 1970 on the clock that shows this time. -/
def seconds (time : LocalTime) : Int :=
  time.date.dayNumber * secondsPerDay + time.clock.seconds

def ofSeconds (seconds : Int) (nanos : Nat) : LocalTime :=
  ⟨.ofDayNumber (seconds / secondsPerDay), ⟨(seconds % secondsPerDay).toNat, nanos⟩⟩

end LocalTime

namespace Instant

/-- What a clock shows that is this many seconds ahead of UTC. -/
def atOffset (instant : Instant) (offset : Int) : LocalTime :=
  .ofSeconds (instant.seconds + offset) instant.nanos

def utc (instant : Instant) : LocalTime :=
  instant.atOffset 0

/-- The first and the last second that an instant may have. -/
def firstSecond : Int :=
  LocalTime.seconds ⟨⟨firstYear, 1, 1⟩, .midnight⟩

def lastSecond : Int :=
  LocalTime.seconds ⟨⟨lastYear, 12, 31⟩, ⟨86399, 0⟩⟩

def of? (seconds : Int) (nanos : Nat) : Option Instant :=
  if firstSecond ≤ seconds ∧ seconds ≤ lastSecond then some ⟨seconds, nanos⟩ else none

/-- The instant in UTC, as documents write it. -/
def text (instant : Instant) : String :=
  let time := instant.utc
  time.date.text ++ "T" ++ time.clock.text ++ time.clock.fractionText ++ "Z"

/-- The instant in UTC to the second, as SQL literals write it. -/
def sqlText (instant : Instant) : String :=
  let time := instant.utc
  time.date.text ++ " " ++ time.clock.text

end Instant

end FieldSearch.Calendar
