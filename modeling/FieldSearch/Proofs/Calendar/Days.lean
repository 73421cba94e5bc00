import FieldSearch.Calendar.Date
import Mathlib.Tactic.IntervalCases

/-! The calendar and the count of days undo each other: a date that exists is the day with its
number, and the day with a number has that number and exists. A cycle of 400 years is cut into
centuries, fours of years, years and months; what is left over at each cut is less than the piece,
but for the leap day that ends a cycle or four years. -/

namespace FieldSearch.Calendar

/-- A day of the cycle is told by its century, its four years, its year and its day of the year. -/
theorem dayOfCycle_eq {day century rest four year : Nat} (hday : day < daysPerCycle)
    (hcentury : century = min (day / 36524) 3) (hrest : rest = day - century * 36524)
    (hfour : four = rest / 1461) (hyear : year = min (rest % 1461 / 365) 3) :
    century * 100 + four * 4 + year < 400 ∧ rest % 1461 - year * 365 ≤ 365 ∧
      (century * 100 + four * 4 + year) * 365 + (century * 100 + four * 4 + year) / 4 -
        (century * 100 + four * 4 + year) / 100 + (rest % 1461 - year * 365) = day := by
  have hbound : day = century * 36524 + rest ∧ century ≤ 3 ∧ rest ≤ 36524 := by
    simp only [daysPerCycle] at hday
    omega
  have hparts : rest = four * 1461 + rest % 1461 ∧ four ≤ 24 ∧ year ≤ 3 := by omega
  have hleap : (century * 100 + four * 4 + year) / 4 = century * 25 + four := by omega
  have hsecular : (century * 100 + four * 4 + year) / 100 = century := by omega
  have hwithin : rest % 1461 = year * 365 + (rest % 1461 - year * 365) ∧
      rest % 1461 - year * 365 ≤ 365 := by omega
  rw [hleap, hsecular]
  omega

/-- The last day of four years is missing from the fours that end a century. -/
theorem last_of_dayOfCycle {day century rest four year : Nat} (hday : day < daysPerCycle)
    (hcentury : century = min (day / 36524) 3) (hrest : rest = day - century * 36524)
    (hfour : four = rest / 1461) (hyear : year = min (rest % 1461 / 365) 3) :
    century ≤ 3 ∧ four ≤ 24 ∧
      (rest % 1461 - year * 365 = 365 → year = 3 ∧ (four = 24 → century = 3)) := by
  have hbound : day = century * 36524 + rest ∧ century ≤ 3 ∧ rest ≤ 36524 := by
    simp only [daysPerCycle] at hday
    omega
  simp only [daysPerCycle] at hday
  omega

/-- The number of a day whose year is counted from March on. -/
theorem Date.dayNumber_of_march (year : Int) {month day : Nat} (hmonth : month < 12) :
    Date.dayNumber (if month < 10 then ⟨year, month + 3, day⟩ else ⟨year + 1, month - 9, day⟩) =
      year / 400 * daysPerCycle +
        (((year % 400).toNat * 365 + (year % 400).toNat / 4 - (year % 400).toNat / 100 +
          ((153 * month + 2) / 5 + day - 1) : Nat) : Int) - daysToEpoch := by
  by_cases hlate : month < 10
  · rw [if_pos hlate]
    have hmarch : ¬month + 3 ≤ 2 := by omega
    have hsame : (month + 3 + 9) % 12 = month := by omega
    simp only [dayNumber, if_neg hmarch, hsame]
  · rw [if_neg hlate]
    have hmarch : month - 9 ≤ 2 := by omega
    have hsame : (month - 9 + 9) % 12 = month := by omega
    simp only [dayNumber, if_pos hmarch, hsame, Int.add_sub_cancel]

/-! ### Dates that exist

A year that begins in March is placed in its cycle by its century, four years and year, and a day in
that year by its month. -/

/-- A year of the cycle is told by its century, its four years and the year among them. -/
theorem yearOfCycle_eq {year : Nat} (hyear : year < 400) :
    ∃ century four rest, century ≤ 3 ∧ four ≤ 24 ∧ rest ≤ 3 ∧
      year = century * 100 + four * 4 + rest ∧ year / 4 = century * 25 + four ∧
      year / 100 = century := by
  refine ⟨year / 100, year % 100 / 4, year % 4, ?_⟩
  omega

/-- A year from March on ends in a leap year if it is the last of its four, and of a century only at
the end of the cycle. -/
theorem isLeapYear_succ_iff {year : Int} {century four rest : Nat} (hcentury : century ≤ 3)
    (hfour : four ≤ 24) (hrest : rest ≤ 3)
    (hyear : year % 400 = century * 100 + four * 4 + rest) :
    isLeapYear (year + 1) ↔ rest = 3 ∧ (four = 24 → century = 3) := by
  simp only [isLeapYear, Bool.and_eq_true, Bool.or_eq_true, beq_iff_eq, bne_iff_ne]
  omega

/-- A month that is counted from March has no more days than lie before the next one; and a year
has no more than 365 days before its last one, which is the leap day. -/
theorem daysInMonth_le (year : Int) {month : Nat} (hfirst : 1 ≤ month) (hlast : month ≤ 12) :
    daysInMonth year month ≤
        (153 * ((month + 9) % 12 + 1) + 2) / 5 - (153 * ((month + 9) % 12) + 2) / 5 ∧
      (153 * ((month + 9) % 12) + 2) / 5 + daysInMonth year month ≤ 366 ∧
      ((153 * ((month + 9) % 12) + 2) / 5 + daysInMonth year month = 366 →
        month = 2 ∧ isLeapYear year) := by
  by_cases hleap : isLeapYear year = true
  · interval_cases month <;> simp [daysInMonth, hleap]
  · interval_cases month <;> simp [daysInMonth, hleap]

/-- The day of the year tells the month and the day. -/
theorem month_of_dayOfYear {month day within : Nat} (hday : 1 ≤ day)
    (hlength : day ≤ (153 * (month + 1) + 2) / 5 - (153 * month + 2) / 5)
    (hwithin : within = (153 * month + 2) / 5 + day - 1) :
    (5 * within + 2) / 153 = month ∧ within - (153 * month + 2) / 5 + 1 = day := by
  omega

/-- The number of a day tells the cycle and the day of the cycle. -/
theorem cycle_of_number (cycle : Int) {day : Nat} (hday : day < daysPerCycle) :
    (cycle * daysPerCycle + day - daysToEpoch + daysToEpoch) / daysPerCycle = cycle ∧
      ((cycle * daysPerCycle + day - daysToEpoch + daysToEpoch) % daysPerCycle).toNat = day := by
  simp only [daysPerCycle] at hday ⊢
  omega

/-- The day whose number is put together from a cycle, a century, four years, a year and a day. -/
theorem Date.ofDayNumber_of_march (cycle : Int) {century four rest within day : Nat}
    (hcentury : century ≤ 3) (hfour : four ≤ 24) (hrest : rest ≤ 3)
    (hwithin : within ≤ 364 ∨ within = 365 ∧ rest = 3 ∧ (four = 24 → century = 3))
    (hday : day = century * 36524 + four * 1461 + rest * 365 + within) :
    ofDayNumber (cycle * daysPerCycle + day - daysToEpoch) =
      if (5 * within + 2) / 153 < 10 then
        ⟨cycle * 400 + century * 100 + four * 4 + rest, (5 * within + 2) / 153 + 3,
          within - (153 * ((5 * within + 2) / 153) + 2) / 5 + 1⟩
      else
        ⟨cycle * 400 + century * 100 + four * 4 + rest + 1, (5 * within + 2) / 153 - 9,
          within - (153 * ((5 * within + 2) / 153) + 2) / 5 + 1⟩ := by
  have hlt : day < daysPerCycle := by
    unfold daysPerCycle
    omega
  have hcycle := cycle_of_number cycle hlt
  have hcenturies : min (day / 36524) 3 = century := by omega
  have hleft : day - century * 36524 = four * 1461 + (rest * 365 + within) := by omega
  have hfit : rest * 365 + within < 1461 := by omega
  have hfours : ((day - century * 36524 : Nat) : Int) / 1461 = four ∧
      (day - century * 36524) % 1461 = rest * 365 + within := by
    rw [hleft]
    clear hwithin
    omega
  have hyears : min ((rest * 365 + within) / 365) 3 = rest := by omega
  simp only [ofDayNumber, hcycle.1, hcycle.2, hcenturies, hfours.1, hfours.2, hyears,
    Nat.add_sub_cancel_left]

/-- The day with a given place in a year that begins in March. -/
theorem Date.ofDayNumber_of_year (year : Int) {within : Nat}
    (hwithin : within ≤ 364 ∨ within = 365 ∧ isLeapYear (year + 1)) :
    ofDayNumber (year / 400 * daysPerCycle +
        (((year % 400).toNat * 365 + (year % 400).toNat / 4 - (year % 400).toNat / 100 + within :
          Nat) : Int) - daysToEpoch) =
      if (5 * within + 2) / 153 < 10 then
        ⟨year, (5 * within + 2) / 153 + 3,
          within - (153 * ((5 * within + 2) / 153) + 2) / 5 + 1⟩
      else
        ⟨year + 1, (5 * within + 2) / 153 - 9,
          within - (153 * ((5 * within + 2) / 153) + 2) / 5 + 1⟩ := by
  obtain ⟨ofCycle, hofCycle⟩ : ∃ y, y = (year % 400).toNat := ⟨_, rfl⟩
  obtain ⟨century, four, rest, hcentury, hfour, hrest, hparts, hleaps, hsecular⟩ :=
    yearOfCycle_eq (show ofCycle < 400 by omega)
  have hyear : year / 400 * 400 + century * 100 + four * 4 + rest = year := by omega
  have hday : ofCycle * 365 + ofCycle / 4 - ofCycle / 100 + within =
      century * 36524 + four * 1461 + rest * 365 + within := by omega
  have hend : within ≤ 364 ∨ within = 365 ∧ rest = 3 ∧ (four = 24 → century = 3) := by
    rcases hwithin with hshort | ⟨hlast, hleap⟩
    · exact .inl hshort
    · have hofYear : year % 400 = century * 100 + four * 4 + rest := by omega
      exact .inr ⟨hlast, (isLeapYear_succ_iff hcentury hfour hrest hofYear).mp hleap⟩
  rw [← hofCycle, ofDayNumber_of_march _ hcentury hfour hrest hend hday, hyear]

/-- A date that exists is the day with its number. -/
theorem Date.ofDayNumber_dayNumber {date : Date} (hvalid : date.IsValid) :
    ofDayNumber date.dayNumber = date := by
  obtain ⟨year, month, day⟩ := date
  obtain ⟨-, -, hfirst, hlast, hday, hlength⟩ := hvalid
  simp only at hfirst hlast hday hlength
  obtain ⟨marchYear, hmarch⟩ : ∃ y, y = if month ≤ 2 then year - 1 else year := ⟨_, rfl⟩
  obtain ⟨marchMonth, hmonth⟩ : ∃ m, m = (month + 9) % 12 := ⟨_, rfl⟩
  obtain ⟨within, hwithin⟩ : ∃ n, n = (153 * marchMonth + 2) / 5 + day - 1 := ⟨_, rfl⟩
  obtain ⟨hbefore, hyear, hleapDay⟩ := daysInMonth_le year hfirst hlast
  rw [← hmonth] at hbefore hyear hleapDay
  obtain ⟨hmonthBack, hdayBack⟩ := month_of_dayOfYear hday (hlength.trans hbefore) hwithin
  have hend : within ≤ 364 ∨ within = 365 ∧ isLeapYear (marchYear + 1) := by
    by_cases hover : within = 365
    · obtain ⟨hfebruary, hleap⟩ := hleapDay (by omega)
      rw [if_pos (by omega)] at hmarch
      rw [hmarch, Int.sub_add_cancel]
      exact .inr ⟨hover, hleap⟩
    · exact .inl (by omega)
  have hnumber : dayNumber ⟨year, month, day⟩ = marchYear / 400 * daysPerCycle +
      (((marchYear % 400).toNat * 365 + (marchYear % 400).toNat / 4 -
        (marchYear % 400).toNat / 100 + within : Nat) : Int) - daysToEpoch := by
    rw [hwithin, hmonth, hmarch]
    rfl
  rw [hnumber, ofDayNumber_of_year _ hend, hmonthBack, hdayBack]
  by_cases hearly : month ≤ 2
  · have hlate : marchMonth = month + 9 := hmonth.trans (Nat.mod_eq_of_lt (by omega))
    rw [if_pos hearly] at hmarch
    rw [if_neg (by omega), hlate, hmarch, Int.sub_add_cancel, Nat.add_sub_cancel]
  · have hsame : marchMonth + 3 = month := by omega
    rw [if_neg hearly] at hmarch
    rw [if_pos (by omega), hsame, hmarch]

/-! ### Every number is that of a date that exists -/

/-- A number is told by a year that begins in March and a day of it, of which the last one is there
in leap years alone. -/
theorem Date.exists_year_of_number (number : Int) :
    ∃ (year : Int) (within : Nat), (within ≤ 364 ∨ within = 365 ∧ isLeapYear (year + 1)) ∧
      year / 400 = (number + daysToEpoch) / daysPerCycle ∧
      number = year / 400 * daysPerCycle +
        (((year % 400).toNat * 365 + (year % 400).toNat / 4 - (year % 400).toNat / 100 + within :
          Nat) : Int) - daysToEpoch := by
  obtain ⟨cycle, hcycle⟩ : ∃ cycle, cycle = (number + daysToEpoch) / daysPerCycle := ⟨_, rfl⟩
  obtain ⟨day, hday⟩ : ∃ day, day = ((number + daysToEpoch) % daysPerCycle).toNat := ⟨_, rfl⟩
  obtain ⟨century, hcentury⟩ : ∃ century, century = min (day / 36524) 3 := ⟨_, rfl⟩
  obtain ⟨rest, hrest⟩ : ∃ rest, rest = day - century * 36524 := ⟨_, rfl⟩
  obtain ⟨four, hfour⟩ : ∃ four, four = rest / 1461 := ⟨_, rfl⟩
  obtain ⟨year, hyear⟩ : ∃ year, year = min (rest % 1461 / 365) 3 := ⟨_, rfl⟩
  have hnumber : number = cycle * daysPerCycle + day - daysToEpoch ∧ day < daysPerCycle := by
    simp only [daysPerCycle] at hcycle hday ⊢
    omega
  obtain ⟨hyears, hlast, hsum⟩ := dayOfCycle_eq hnumber.2 hcentury hrest hfour hyear
  have hcycleYear : (cycle * 400 + (century * 100 + four * 4 + year : Nat)) / 400 = cycle ∧
      ((cycle * 400 + (century * 100 + four * 4 + year : Nat)) % 400).toNat =
        century * 100 + four * 4 + year := by omega
  refine ⟨cycle * 400 + (century * 100 + four * 4 + year : Nat), rest % 1461 - year * 365, ?_,
    hcycleYear.1.trans hcycle, ?_⟩
  · by_cases hover : rest % 1461 - year * 365 = 365
    · obtain ⟨hcenturies, hfours, hlastYear⟩ :=
        last_of_dayOfCycle hnumber.2 hcentury hrest hfour hyear
      obtain ⟨hthird, hends⟩ := hlastYear hover
      have hofYear : (cycle * 400 + (century * 100 + four * 4 + year : Nat)) % 400 =
          century * 100 + four * 4 + year := by omega
      exact .inr ⟨hover, (isLeapYear_succ_iff hcenturies hfours hthird.le hofYear).mpr
        ⟨hthird, hends⟩⟩
    · exact .inl (by omega)
  · rw [hcycleYear.1, hcycleYear.2, hsum]
    exact hnumber.1

theorem Date.dayNumber_ofDayNumber (number : Int) : (ofDayNumber number).dayNumber = number := by
  obtain ⟨year, within, hwithin, -, rfl⟩ := exists_year_of_number number
  have hmonth : (5 * within + 2) / 153 < 12 := by omega
  have hdays : (153 * ((5 * within + 2) / 153) + 2) / 5 +
      (within - (153 * ((5 * within + 2) / 153) + 2) / 5 + 1) - 1 = within := by omega
  rw [ofDayNumber_of_year year hwithin, dayNumber_of_march year hmonth, hdays]

/-- Different days have different dates. -/
theorem Date.ofDayNumber_inj {number number' : Int}
    (heq : ofDayNumber number = ofDayNumber number') : number = number' := by
  rw [← dayNumber_ofDayNumber number, heq, dayNumber_ofDayNumber]

/-- A day of a year from March on is a day of one of its months. -/
theorem daysInMonth_of_march {year : Int} {within month : Nat}
    (hwithin : within ≤ 364 ∨ within = 365 ∧ isLeapYear (year + 1))
    (hmonth : month = (5 * within + 2) / 153) :
    within - (153 * month + 2) / 5 + 1 ≤
      if month < 10 then daysInMonth year (month + 3) else daysInMonth (year + 1) (month - 9) := by
  have hlast : month < 12 := by omega
  have hnext : within < (153 * (month + 1) + 2) / 5 := by omega
  by_cases hleap : isLeapYear (year + 1) = true
  · interval_cases month <;> simp [daysInMonth, hleap] <;> omega
  · have hshort : within ≤ 364 := hwithin.resolve_right fun hover => hleap hover.2
    interval_cases month <;> simp [daysInMonth, hleap] <;> omega

/-- Years are counted from the first of the cycle on; the last one may end in the next cycle. -/
theorem Date.year_ofDayNumber (number : Int) :
    (number + daysToEpoch) / daysPerCycle * 400 ≤ (ofDayNumber number).year ∧
      (ofDayNumber number).year ≤ (number + daysToEpoch) / daysPerCycle * 400 + 400 := by
  obtain ⟨year, within, hwithin, hcycle, hnumber⟩ := exists_year_of_number number
  rw [← hcycle, hnumber, ofDayNumber_of_year year hwithin]
  split <;> dsimp only <;> omega

/-- The day with a number exists, unless its year is beyond those supported. -/
theorem Date.ofDayNumber_isValid {number : Int} (hfirst : firstYear ≤ (ofDayNumber number).year)
    (hlast : (ofDayNumber number).year ≤ lastYear) : (ofDayNumber number).IsValid := by
  obtain ⟨year, within, hwithin, -, hnumber⟩ := exists_year_of_number number
  have hday := daysInMonth_of_march hwithin rfl
  refine ⟨hfirst, hlast, ?_⟩
  rw [hnumber, ofDayNumber_of_year year hwithin]
  by_cases hlate : (5 * within + 2) / 153 < 10
  · rw [if_pos hlate] at hday ⊢
    dsimp only
    omega
  · rw [if_neg hlate] at hday ⊢
    dsimp only
    omega

end FieldSearch.Calendar
