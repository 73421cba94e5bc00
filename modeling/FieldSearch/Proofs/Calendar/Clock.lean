import FieldSearch.Proofs.Calendar.Days
import FieldSearch.Proofs.Calendar.Shapes

/-! Clocks. A local time that exists is the only one with its number of seconds, so a clock that is
ahead of UTC by an offset shows a time at one instant alone. What the layouts and RFC 3339 read are
local times that exist. -/

namespace FieldSearch.Calendar

/-- The date exists, and the time of day is one of its seconds. -/
structure LocalTime.IsValid (time : LocalTime) : Prop where
  date : time.date.IsValid
  clock : time.clock.seconds < secondsPerDay

namespace LocalTime

theorem seconds_ofSeconds (seconds : Int) (nanos : Nat) :
    (ofSeconds seconds nanos).seconds = seconds := by
  simp only [LocalTime.seconds, ofSeconds, Date.dayNumber_ofDayNumber, secondsPerDay]
  omega

/-- A local time that exists is what a clock shows at its second. -/
theorem IsValid.ofSeconds_seconds {time : LocalTime} (hvalid : time.IsValid) :
    ofSeconds time.seconds time.clock.nanos = time := by
  obtain ⟨date, seconds, nanos⟩ := time
  obtain ⟨hdate, hclock⟩ := hvalid
  simp only at hdate hclock
  have hday : (date.dayNumber * secondsPerDay + seconds) / secondsPerDay = date.dayNumber := by
    simp only [secondsPerDay] at hclock ⊢
    omega
  have hrest : ((date.dayNumber * secondsPerDay + seconds) % secondsPerDay).toNat = seconds := by
    simp only [secondsPerDay] at hclock ⊢
    omega
  simp only [ofSeconds, LocalTime.seconds, hday, hrest, Date.ofDayNumber_dayNumber hdate]

end LocalTime

/-- A clock shows a time at the instant that is behind it by the offset, and at no other. -/
theorem Instant.atOffset_eq_iff {time : LocalTime} (hvalid : time.IsValid) {instant : Instant}
    {offset : Int} :
    instant.atOffset offset = time ↔
      instant.seconds + offset = time.seconds ∧ instant.nanos = time.clock.nanos := by
  constructor
  · rintro rfl
    exact ⟨(LocalTime.seconds_ofSeconds _ _).symm, rfl⟩
  · rintro ⟨hseconds, hnanos⟩
    rw [atOffset, hseconds, hnanos, hvalid.ofSeconds_seconds]

/-! ### Times that are read -/

theorem Date.isValid_of_of? {year : Int} {month day : Nat} {date : Date}
    (hdate : of? year month day = some date) : date.IsValid := by
  obtain ⟨hvalid, hsame⟩ := Option.ite_none_right_eq_some.mp hdate
  exact Option.some.inj hsame ▸ hvalid

theorem ClockTime.lt_of_of? {hour minute second nanos : Nat} {clock : ClockTime}
    (hclock : of? hour minute second nanos = some clock) : clock.seconds < secondsPerDay := by
  obtain ⟨hrange, hclock⟩ := Option.ite_none_right_eq_some.mp hclock
  unfold secondsPerDay
  split at hclock
  · obtain rfl := Option.some.inj hclock
    show hour * 3600 + minute * 60 + 59 < 86400
    omega
  · obtain rfl := Option.some.inj hclock
    show hour * 3600 + minute * 60 + second < 86400
    omega

theorem Layout.localTime?_isValid {s : List Char} {time : LocalTime}
    (htime : localTime? s = some time) : time.IsValid := by
  obtain ⟨layout, -, hlayout⟩ := List.exists_of_findSome?_eq_some htime
  obtain ⟨numbers, -, hnumbers⟩ := Option.bind_eq_some_iff.mp hlayout
  unfold Numbers.localTime? at hnumbers
  split at hnumbers
  next date clock hdate hclock =>
      obtain rfl := Option.some.inj hnumbers
      exact ⟨Date.isValid_of_of? hdate, ClockTime.lt_of_of? hclock⟩
  next => cases hnumbers

theorem Layout.date?_isValid {s : List Char} {date : Date} (hdate : date? s = some date) :
    date.IsValid := by
  obtain ⟨layout, -, hlayout⟩ := List.exists_of_findSome?_eq_some hdate
  obtain ⟨numbers, -, hnumbers⟩ := Option.bind_eq_some_iff.mp hlayout
  exact Date.isValid_of_of? hnumbers

/-- A text without an offset shows a time that exists. -/
theorem naiveTime?_isValid {s : List Char} {time : LocalTime} (htime : naiveTime? s = some time) :
    time.IsValid := by
  rcases Option.or_eq_some_iff.mp htime with hlocal | ⟨-, hmidnight⟩
  · exact Layout.localTime?_isValid hlocal
  · obtain ⟨date, hdate, rfl⟩ := Option.map_eq_some_iff.mp hmidnight
    exact ⟨Layout.date?_isValid hdate, Nat.succ_pos _⟩

/-- So does a text with one. -/
theorem Rfc3339.read_isValid {s : List Char} {time : LocalTime} {offset : Int}
    (hread : read s = some (time, offset)) : time.IsValid := by
  obtain ⟨⟨_, _, _, _, -, hdate⟩, ⟨_, _, _, _, hclock⟩, -⟩ := read_eq_some hread
  exact ⟨Date.isValid_of_of? hdate, ClockTime.lt_of_of? hclock⟩

end FieldSearch.Calendar
