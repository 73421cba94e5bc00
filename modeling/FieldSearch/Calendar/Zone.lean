import FieldSearch.Calendar.Instant

/-!
Time zones. A zone has an offset from UTC, in seconds, and changes of it at certain instants; an
offset holds from its instant on. A local time may be shown at one instant, at several, or at none,
where the clock was put back or forward; it is read as the earliest instant that shows it.
-/

namespace FieldSearch.Calendar

structure Zone where
  name : String
  initial : Int
  changes : List (Int × Int)
  deriving DecidableEq, Repr

namespace Zone

/-- The offset at a second, given the one before a list of changes. -/
def offsetAfter (second : Int) : Int → List (Int × Int) → Int
  | offset, [] => offset
  | offset, (start, next) :: more =>
    if second < start then offset else offsetAfter second next more

def offsetAt (zone : Zone) (second : Int) : Int :=
  offsetAfter second zone.initial zone.changes

/-- The earliest second at or after `start` that shows `shown`, given the offset at `start` and the
later changes. -/
def earliestFrom (shown : Int) : Option Int → Int → List (Int × Int) → Option Int
  | start, offset, [] =>
    let second := shown - offset
    if start.all (· ≤ second) then some second else none
  | start, offset, (stop, next) :: more =>
    let second := shown - offset
    if start.all (· ≤ second) && second < stop then some second
    else earliestFrom shown (some stop) next more

/-- The earliest second at which the zone's clock shows a number of local seconds. -/
def earliest? (zone : Zone) (shown : Int) : Option Int :=
  earliestFrom shown none zone.initial zone.changes

/-- What the zone's clock shows at an instant. -/
def localTime (zone : Zone) (instant : Instant) : LocalTime :=
  instant.atOffset (zone.offsetAt instant.seconds)

/-- The earliest instant at which the zone's clock shows a time. -/
def instant? (zone : Zone) (time : LocalTime) : Option Instant :=
  (zone.earliest? time.seconds).bind fun second => Instant.of? second time.clock.nanos

end Zone

end FieldSearch.Calendar
