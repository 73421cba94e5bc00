import FieldSearch.Calendar.Layout
import FieldSearch.Calendar.Rfc3339
import FieldSearch.Calendar.Zone
import FieldSearch.Text.White

/-!
Dates and instants as people type them into a search. What has no offset is read on the clock of a
zone, and a date alone as its midnight there.
-/

namespace FieldSearch.Calendar

/-- The local time that a text without offset shows, dates at midnight. -/
def naiveTime? (s : List Char) : Option LocalTime :=
  (Layout.localTime? s).or ((Layout.date? s).map fun date => ⟨date, .midnight⟩)

/-- The instant that a text denotes. -/
def readInstant (zone : Zone) (text : String) : Option Instant :=
  let s := Text.trim text.toList
  (Rfc3339.instant? s).or ((naiveTime? s).bind zone.instant?)

/-- The date that a text denotes, which for an instant is the one in the zone. -/
def readDate (zone : Zone) (text : String) : Option Date :=
  let s := Text.trim text.toList
  (Layout.date? s).or <| ((Layout.localTime? s).map LocalTime.date).or <|
    (Rfc3339.instant? s).map fun instant => (zone.localTime instant).date

/-! ### Reading back what is written -/

/-- The date that `Date.text` writes in this way. -/
def writtenDate? (text : String) : Option Date :=
  (Layout.read (Layout.yearFirst '-') text.toList).bind Layout.Numbers.date?

/-- The instant that `Instant.text` writes in this way. -/
def writtenInstant? (text : String) : Option Instant :=
  let toSecond := text.toList.takeWhile fun c => c != '.' && c != 'Z'
  let rest := text.toList.dropWhile fun c => c != '.' && c != 'Z'
  match Layout.localTime? toSecond, Rfc3339.fraction? rest with
  | some time, some (nanos, ['Z']) => some ⟨time.seconds, time.clock.nanos + nanos⟩
  | _, _ => none

end FieldSearch.Calendar
