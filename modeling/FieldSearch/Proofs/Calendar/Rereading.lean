import FieldSearch.Proofs.Calendar.Texts
import FieldSearch.Proofs.Calendar.Zones
import Mathlib.Data.List.Induction

/-! Dates and instants that are written and read again. Every number is read with whatever stands
behind it, as far as it was written: it has its full width, or something other than a digit follows.
So the first layout of all reads a date as it was written, a local time of whole seconds with a gap
before it likewise, and RFC 3339 an instant with its fraction. -/

namespace FieldSearch.Calendar

/-! ### Numbers -/

theorem length_padded {width n : Nat} (hwidth : 0 < width) (hn : n < 10 ^ width) :
    (padded width n).toList.length = width := by
  have hle := (Nat.length_toDigits_le_iff (by decide) hwidth).mpr hn
  simp only [padded, String.toList_ofList, List.length_append, List.length_replicate]
  omega

/-- A number begins with a digit. -/
theorem exists_cons_padded (width n : Nat) :
    ∃ d digits, (padded width n).toList = d :: digits ∧ d.isDigit := by
  have hpos : 0 < (padded width n).toList.length := by
    have hpos : 0 < (Nat.toDigits 10 n).length := Nat.length_toDigits_pos
    simp only [padded, String.toList_ofList, List.length_append]
    omega
  obtain ⟨d, digits, hcons⟩ := List.exists_cons_of_length_pos hpos
  exact ⟨d, digits, hcons, isDigit_of_mem_padded (hcons ▸ List.mem_cons_self)⟩

/-- Digits are read as far as they go, if there are not too many. -/
theorem leadingDigits_append {most : Nat} {digits : List Char} (hdigits : ∀ c ∈ digits, c.isDigit)
    (hmost : digits.length ≤ most) {rest : List Char}
    (hstop : digits.length = most ∨ ∀ c ∈ rest.head?, ¬c.isDigit) :
    leadingDigits most (digits ++ rest) = digits := by
  rw [leadingDigits, List.take_append, List.take_of_length_le hmost,
    List.takeWhile_append_of_pos hdigits]
  have hrest : (rest.take (most - digits.length)).takeWhile Char.isDigit = [] := by
    rcases hstop with hfull | hstop
    · simp [hfull]
    · cases rest with
      | nil => simp
      | cons c rest =>
          cases most - digits.length with
          | zero => rfl
          | succ more => simpa [List.takeWhile_cons] using hstop c rfl
  rw [hrest, List.append_nil]

theorem number?_padded {most width n : Nat} (rest : List Char)
    (hmost : (padded width n).toList.length ≤ most)
    (hstop : (padded width n).toList.length = most ∨ ∀ c ∈ rest.head?, ¬c.isDigit) :
    number? most ((padded width n).toList ++ rest) = some (n, rest) := by
  have hdigits := leadingDigits_append (fun c => isDigit_of_mem_padded) hmost hstop
  obtain ⟨d, digits, hcons, -⟩ := exists_cons_padded width n
  have hne : (padded width n).toList ≠ [] := hcons ▸ List.cons_ne_nil d digits
  simp [number?, hdigits, hne, numberOf_padded]

theorem fixedNumber?_padded {width n : Nat} (hwidth : 0 < width) (hn : n < 10 ^ width)
    (rest : List Char) :
    fixedNumber? width ((padded width n).toList ++ rest) = some (n, rest) := by
  have hlength := length_padded hwidth hn
  have hdigits : leadingDigits width ((padded width n).toList ++ rest) = (padded width n).toList :=
    leadingDigits_append (fun c => isDigit_of_mem_padded) hlength.le (.inl hlength)
  have hdrop : ((padded width n).toList ++ rest).drop width = rest := List.drop_left' hlength
  simp only [fixedNumber?, hdigits, hlength, hdrop, numberOf_padded, if_true]

/-- Digits write a number of no more digits. -/
theorem numberOf_lt {digits : List Char} (hdigits : ∀ c ∈ digits, c.isDigit) :
    numberOf digits < 10 ^ digits.length := by
  induction digits using List.reverseRecOn with
  | nil => decide
  | append_singleton digits d ih =>
      have hrest := ih fun c hc => hdigits c (List.mem_append_left _ hc)
      have hd : digitValue d ≤ 9 := by
        have hrange : d.toNat ≤ 57 := (Char.isDigit_iff_toNat.mp (hdigits d (by simp))).2
        exact Nat.sub_le_sub_right hrange 48
      calc
        numberOf (digits ++ [d]) = numberOf digits * 10 + digitValue d := by simp [numberOf]
        _ < 10 ^ digits.length * 10 := by omega
        _ = 10 ^ (digits ++ [d]).length := by
          rw [List.length_append, List.length_singleton, Nat.pow_succ]

theorem fixedNumber?_lt {width n : Nat} {s r : List Char}
    (hread : fixedNumber? width s = some (n, r)) : n < 10 ^ width := by
  obtain ⟨hwidth, hread⟩ := Option.ite_none_right_eq_some.mp hread
  obtain ⟨hn, -⟩ := Prod.mk.inj (Option.some.inj hread)
  have hdigits : ∀ c ∈ leadingDigits width s, c.isDigit := fun c => List.mem_takeWhile_imp
  have hlt := numberOf_lt hdigits
  rwa [hwidth, hn] at hlt

/-- Zeros behind digits multiply their number. -/
theorem numberOf_append_zeros (digits : List Char) (zeros : Nat) :
    numberOf (digits ++ List.replicate zeros '0') = numberOf digits * 10 ^ zeros := by
  induction zeros with
  | zero => simp
  | succ zeros ih =>
      have hzero : digitValue '0' = 0 := rfl
      have hlast : ∀ digits, numberOf (digits ++ ['0']) = numberOf digits * 10 := by
        simp [numberOf, hzero]
      rw [List.replicate_succ', ← List.append_assoc, hlast, ih, Nat.pow_succ, Nat.mul_assoc]

/-! ### White space -/

theorem not_isWhite_of_isDigit {c : Char} (hdigit : c.isDigit) : ¬Text.isWhite c := by
  have hrange : 48 ≤ c.toNat ∧ c.toNat ≤ 57 := Char.isDigit_iff_toNat.mp hdigit
  simp only [Text.isWhite, Bool.or_eq_true, Bool.and_eq_true, decide_eq_true_eq, beq_iff_eq]
  omega

theorem trimStart_padded (width n : Nat) (rest : List Char) :
    Text.trimStart ((padded width n).toList ++ rest) = (padded width n).toList ++ rest := by
  obtain ⟨d, digits, hcons, hdigit⟩ := exists_cons_padded width n
  apply Text.trimStart_eq_self
  simpa [hcons] using not_isWhite_of_isDigit hdigit

theorem not_isWhite_last_padded (width n : Nat) (before : List Char) :
    ∀ c ∈ (before ++ (padded width n).toList).getLast?, ¬Text.isWhite c := by
  obtain ⟨d, digits, hcons, -⟩ := exists_cons_padded width n
  intro c hc
  rw [List.getLast?_append_of_ne_nil _ (hcons ▸ List.cons_ne_nil d digits)] at hc
  exact not_isWhite_of_isDigit (isDigit_of_mem_padded (List.mem_of_getLast? hc))

theorem trimStart_yearText (year : Int) (rest : List Char) :
    Text.trimStart ((yearText year).toList ++ rest) = (yearText year).toList ++ rest := by
  unfold yearText
  split
  · simp [Text.trimStart, Text.isWhite]
  · split
    · exact trimStart_padded 4 _ rest
    · simp [Text.trimStart, Text.isWhite]

theorem Date.trimStart_text (date : Date) (rest : List Char) :
    Text.trimStart (date.text.toList ++ rest) = date.text.toList ++ rest := by
  simp only [text, String.toList_append, List.append_assoc]
  exact trimStart_yearText date.year _

/-! ### Dates and clocks -/

/-- Months and days have two digits. -/
theorem Date.IsValid.lt_hundred {date : Date} (hvalid : date.IsValid) :
    date.month < 100 ∧ date.day < 100 := by
  obtain ⟨-, -, hfirst, hlast, -, hlength⟩ := hvalid
  have hmonth := (daysInMonth_le date.year hfirst hlast).1
  omega

theorem Date.IsValid.of?_eq {date : Date} (hvalid : date.IsValid) :
    of? date.year date.month date.day = some date :=
  if_pos hvalid

/-- A time of day is put together again from what a clock shows. -/
theorem ClockTime.of?_shown {second : Nat} (hsecond : second < secondsPerDay) (nanos : Nat) :
    of? (second / 3600) (second / 60 % 60) (second % 60) nanos = some ⟨second, nanos⟩ := by
  unfold secondsPerDay at hsecond
  have hrange : second / 3600 ≤ 23 ∧ second / 60 % 60 ≤ 59 ∧ second % 60 ≤ 60 := by omega
  have hleap : second % 60 ≠ 60 := by omega
  have hsum : second / 3600 * 3600 + second / 60 % 60 * 60 + second % 60 = second := by omega
  rw [of?, if_pos hrange, if_neg hleap, hsum]

/-! ### Layouts -/

namespace Layout

theorem year?_yearText (year : Int) (rest : List Char) (hstop : ∀ c ∈ rest.head?, ¬c.isDigit) :
    year? ((yearText year).toList ++ rest) = some (year, rest) := by
  have hsigned : ∀ width, number? ((padded width year.natAbs).toList ++ rest).length
      ((padded width year.natAbs).toList ++ rest) = some (year.natAbs, rest) := fun width =>
    number?_padded rest (by simp) (.inr hstop)
  by_cases hearly : year < 0
  · have htext : (yearText year).toList = '-' :: (padded 4 year.natAbs).toList := by
      simp [yearText, hearly]
    have hyear : -(year.natAbs : Int) = year := by omega
    simp only [htext, List.cons_append, year?, hsigned, Option.map_some, hyear]
  · by_cases hlate : year ≤ 9999
    · have htext : (yearText year).toList = (padded 4 year.natAbs).toList := by
        simp [yearText, hearly, hlate]
      have hyear : (year.natAbs : Int) = year := by omega
      have hfour : (padded 4 year.natAbs).toList.length = 4 := length_padded (by decide) (by omega)
      have hnumber := number?_padded rest hfour.le (.inl hfour)
      obtain ⟨d, digits, hcons, hdigit⟩ := exists_cons_padded 4 year.natAbs
      rw [htext]
      rw [hcons, List.cons_append] at hnumber ⊢
      unfold year?
      split
      next heq => exact absurd (List.cons.inj heq).1 (by rintro rfl; cases hdigit)
      next heq => exact absurd (List.cons.inj heq).1 (by rintro rfl; cases hdigit)
      next => simp only [hnumber, Option.map_some, hyear]
    · have htext : (yearText year).toList = '+' :: (padded 5 year.natAbs).toList := by
        simp [yearText, hearly, hlate]
      have hyear : (year.natAbs : Int) = year := by omega
      simp only [htext, List.cons_append, year?, hsigned, Option.map_some, hyear]

theorem number?_two {n : Nat} (hn : n < 100) (rest : List Char) :
    number? 2 (Text.trimStart ((padded 2 n).toList ++ rest)) = some (n, rest) := by
  have htwo : (padded 2 n).toList.length = 2 := length_padded (by decide) hn
  rw [trimStart_padded, number?_padded rest htwo.le (.inl htwo)]

theorem readFrom_yearFirst {date : Date} (hvalid : date.IsValid) (layout : List Item)
    (rest : List Char) :
    readFrom (yearFirst '-' ++ layout) {} (date.text.toList ++ rest) =
      readFrom layout { year := date.year, month := date.month, day := date.day } rest := by
  obtain ⟨hmonth, hday⟩ := hvalid.lt_hundred
  have hyear := year?_yearText date.year
    ('-' :: ((padded 2 date.month).toList ++ '-' :: ((padded 2 date.day).toList ++ rest)))
    (by simp)
  simp [Date.text, yearFirst, readFrom, Item.read, trimStart_yearText, hyear, after?,
    number?_two hmonth, number?_two hday]

/-- The seconds of a minute, its minutes of an hour and the hours are read as they were written. -/
theorem readFrom_toSecond {clock : ClockTime} (hclock : clock.seconds < secondsPerDay)
    (hnanos : clock.nanos < nanosPerSecond) (numbers : Numbers) :
    readFrom toSecond numbers clock.text.toList =
      some { numbers with
        hour := clock.seconds / 3600
        minute := clock.seconds / 60 % 60
        second := clock.seconds % 60 } := by
  have hwhole : clock.nanos / nanosPerSecond = 0 := Nat.div_eq_of_lt hnanos
  have hhour : clock.seconds / 3600 < 100 := by
    unfold secondsPerDay at hclock
    omega
  have hminute : clock.seconds / 60 % 60 < 100 := by omega
  have hsecond : clock.seconds % 60 < 100 := by omega
  have hlast := number?_two hsecond []
  rw [List.append_nil] at hlast
  simp [ClockTime.text, toSecond, toMinute, readFrom, Item.read, after?, hwhole,
    number?_two hhour, number?_two hminute, hlast]

theorem date?_text {date : Date} (hvalid : date.IsValid) : date? date.text.toList = some date := by
  have hread := readFrom_yearFirst hvalid [] []
  rw [List.append_nil, List.append_nil] at hread
  simp [date?, dates, Layout.read, hread, readFrom, Numbers.date?, hvalid.of?_eq]

/-- A local time is read as it was written, to the second. -/
theorem localTime?_text {time : LocalTime} (hvalid : time.IsValid)
    (hnanos : time.clock.nanos < nanosPerSecond) :
    localTime? (time.date.text ++ " " ++ time.clock.text).toList =
      some ⟨time.date, time.clock.seconds, 0⟩ := by
  have hread := readFrom_yearFirst hvalid.date (.gap :: toSecond) (' ' :: time.clock.text.toList)
  have hclock := readFrom_toSecond hvalid.clock hnanos
  have htrim : Text.trimStart (' ' :: time.clock.text.toList) = time.clock.text.toList := by
    rw [Text.trimStart, List.dropWhile_cons_of_pos (by decide), ← Text.trimStart]
    simp only [ClockTime.text, String.toList_append, List.append_assoc]
    exact trimStart_padded 2 _ _
  simp [localTime?, localTimes, Layout.read, hread, readFrom, Numbers.localTime?, Numbers.date?,
    Item.read, htrim, hclock, hvalid.date.of?_eq, ClockTime.of?_shown hvalid.clock]

end Layout

/-! ### RFC 3339 -/

namespace Rfc3339

theorem nanosOf_padded {width n : Nat} (hwidth : 0 < width) (hnine : width ≤ 9)
    (hn : n < 10 ^ width) : nanosOf (padded width n).toList = n * 10 ^ (9 - width) := by
  have hlength := length_padded hwidth hn
  have hnine : ((padded width n).toList ++ List.replicate 9 '0').take 9 =
      (padded width n).toList ++ List.replicate (9 - width) '0' := by
    rw [List.take_append, hlength, List.take_of_length_le (hlength.trans_le hnine),
      List.take_replicate, Nat.min_eq_left (Nat.sub_le 9 width)]
  calc
    nanosOf (padded width n).toList =
        numberOf ((padded width n).toList ++ List.replicate (9 - width) '0') :=
      congrArg numberOf hnine
    _ = n * 10 ^ (9 - width) := by rw [numberOf_append_zeros, numberOf_padded]

theorem fraction?_padded {width n : Nat} (hwidth : 0 < width) (hnine : width ≤ 9)
    (hn : n < 10 ^ width) (rest : List Char) :
    fraction? ('.' :: ((padded width n).toList ++ 'Z' :: rest)) =
      some (n * 10 ^ (9 - width), 'Z' :: rest) := by
  have hdigits : ∀ c ∈ (padded width n).toList, c.isDigit := fun c => isDigit_of_mem_padded
  obtain ⟨d, digits, hcons, -⟩ := exists_cons_padded width n
  have hne : (padded width n).toList ≠ [] := hcons ▸ List.cons_ne_nil d digits
  simp [fraction?, List.takeWhile_append_of_pos hdigits, List.dropWhile_append_of_pos hdigits, hne,
    nanosOf_padded hwidth hnine hn]

/-- A fraction is read as it was written, in groups of three digits. -/
theorem fraction?_text {clock : ClockTime} (hnanos : clock.nanos < nanosPerSecond)
    (rest : List Char) :
    fraction? (clock.fractionText.toList ++ 'Z' :: rest) = some (clock.nanos, 'Z' :: rest) := by
  have hwhole : clock.nanos % nanosPerSecond = clock.nanos := Nat.mod_eq_of_lt hnanos
  have hwidths : ∀ width ∈ [3, 6, 9],
      0 < width ∧ width ≤ 9 ∧ 10 ^ width * 10 ^ (9 - width) = nanosPerSecond := by decide
  have hgroups : ∀ width ∈ [3, 6, 9], clock.nanos % 10 ^ (9 - width) = 0 →
      fraction? (("." ++ padded width (clock.nanos / 10 ^ (9 - width))).toList ++ 'Z' :: rest) =
        some (clock.nanos, 'Z' :: rest) := by
    intro width hwidth hexact
    obtain ⟨hpos, hnine, hsplit⟩ := hwidths width hwidth
    have hn : clock.nanos / 10 ^ (9 - width) < 10 ^ width := by
      rwa [Nat.div_lt_iff_lt_mul (Nat.pow_pos (by decide)), hsplit]
    have hback := Nat.div_mul_cancel (Nat.dvd_of_mod_eq_zero hexact)
    simp [fraction?_padded hpos hnine hn, hback]
  simp only [ClockTime.fractionText, hwhole]
  by_cases hzero : clock.nanos = 0
  · simp [hzero, fraction?]
  by_cases hmillis : clock.nanos % 1000000 = 0
  · rw [if_neg hzero, if_pos hmillis]
    exact hgroups 3 (by simp) hmillis
  by_cases hmicros : clock.nanos % 1000 = 0
  · rw [if_neg hzero, if_neg hmillis, if_pos hmicros]
    exact hgroups 6 (by simp) hmicros
  · have hlast := hgroups 9 (by simp) (Nat.mod_one _)
    rw [if_neg hzero, if_neg hmillis, if_neg hmicros]
    rwa [Nat.sub_self, Nat.pow_zero, Nat.div_one] at hlast

/-- The text of an instant in UTC, of a year of four digits and but for leap seconds, is read as
what it shows. -/
theorem read_text {time : LocalTime} (hvalid : time.IsValid) (hfirst : 0 ≤ time.date.year)
    (hlast : time.date.year ≤ 9999) (hnanos : time.clock.nanos < nanosPerSecond) :
    read (time.date.text ++ "T" ++ time.clock.text ++ time.clock.fractionText ++ "Z").toList =
      some (time, 0) := by
  obtain ⟨hmonth, hday⟩ := hvalid.date.lt_hundred
  have hclock := hvalid.clock
  unfold secondsPerDay at hclock
  have hwhole : time.clock.nanos / nanosPerSecond = 0 := Nat.div_eq_of_lt hnanos
  have hyearText : yearText time.date.year = padded 4 time.date.year.natAbs := by
    rw [yearText, if_neg (by omega), if_pos hlast]
  have hyear : (time.date.year.natAbs : Int) = time.date.year := by omega
  have hfour : ∀ rest, fixedNumber? 4 ((padded 4 time.date.year.natAbs).toList ++ rest) =
      some (time.date.year.natAbs, rest) := fixedNumber?_padded (by decide) (by omega)
  have htwo : ∀ n < 100, ∀ rest, fixedNumber? 2 ((padded 2 n).toList ++ rest) = some (n, rest) :=
    fun n hn => fixedNumber?_padded Nat.two_pos hn
  have hhour := htwo (time.clock.seconds / 3600) (by omega)
  have hminute := htwo (time.clock.seconds / 60 % 60) (by omega)
  have hsecond := htwo (time.clock.seconds % 60) (by omega)
  have hdate := hvalid.date.of?_eq
  rw [← hyear] at hdate
  simp only [Date.text, ClockTime.text, hyearText, hwhole, Nat.add_zero, String.toList_append,
    String.reduceToList, List.append_assoc, List.cons_append, List.nil_append]
  -- one piece is read and the rest goes on; unfolding all of them at once does not come to an end
  have hbind : ∀ {α β : Type} {x : Option α} {f : α → Option β} {a : α} {b : β},
      x = some a → f a = some b → x >>= f = some b := by
    rintro α β x f a b rfl hf
    exact hf
  unfold read
  refine hbind (hfour _) (hbind rfl ?_)
  refine hbind (htwo _ hmonth _) (hbind rfl ?_)
  refine hbind (htwo _ hday _) (hbind rfl ?_)
  refine hbind (hhour _) (hbind rfl ?_)
  refine hbind (hminute _) (hbind rfl ?_)
  refine hbind (hsecond _) (hbind (fraction?_text hnanos []) ?_)
  exact hbind rfl (hbind hdate (hbind (ClockTime.of?_shown hvalid.clock _) rfl))

end Rfc3339

/-! ### Years of four digits -/

/-- RFC 3339 has years of four digits. -/
theorem Rfc3339.year_of_read {s : List Char} {time : LocalTime} {offset : Int}
    (hread : read s = some (time, offset)) : 0 ≤ time.date.year ∧ time.date.year ≤ 9999 := by
  obtain ⟨⟨year, _, month, day, hyear, hdate⟩, -⟩ := read_eq_some hread
  obtain ⟨-, hdate⟩ := Option.ite_none_right_eq_some.mp hdate
  have hlt := fixedNumber?_lt hyear
  have hsame : (year : Int) = time.date.year := congrArg Date.year (Option.some.inj hdate)
  omega

/-- The number of a date is in the cycle of its year, or just behind it. -/
theorem Date.IsValid.cycle {date : Date} (hvalid : date.IsValid) :
    (date.dayNumber + daysToEpoch) / daysPerCycle * 400 ≤ date.year ∧
      date.year ≤ (date.dayNumber + daysToEpoch) / daysPerCycle * 400 + 400 := by
  have hyear := year_ofDayNumber date.dayNumber
  rwa [ofDayNumber_dayNumber hvalid] at hyear

/-- No clock shows an instant of these years on a day that does not exist. -/
theorem LocalTime.ofSeconds_date_isValid {time : LocalTime} (hvalid : time.IsValid)
    (hfirst : 0 ≤ time.date.year) (hlast : time.date.year ≤ 9999) {shift : Int}
    (hshift : shift.natAbs < 2 * secondsPerDay) (nanos : Nat) :
    (ofSeconds (time.seconds + shift) nanos).date.IsValid := by
  obtain ⟨number, hnumber⟩ : ∃ n, n = (time.seconds + shift) / secondsPerDay := ⟨_, rfl⟩
  have hnear : (number - time.date.dayNumber).natAbs ≤ 3 := by
    have hclock := hvalid.clock
    simp only [LocalTime.seconds, secondsPerDay] at hnumber hclock hshift
    omega
  -- three days more or less lead to the next cycle of years at most
  have hcycle := hvalid.date.cycle
  have hyear := Date.year_ofDayNumber number
  simp only [daysPerCycle] at hcycle hyear
  show (Date.ofDayNumber ((time.seconds + shift) / secondsPerDay)).IsValid
  rw [← hnumber]
  apply Date.ofDayNumber_isValid
  · unfold firstYear
    omega
  · unfold lastYear
    omega

/-- The date of a text exists. -/
theorem readDate_isValid {zone : Zone} (hsound : zone.IsSound) {text : String} {date : Date}
    (hdate : readDate zone text = some date) : date.IsValid := by
  rcases Option.or_eq_some_iff.mp hdate with hdate | ⟨-, hdate⟩
  · exact Layout.date?_isValid hdate
  rcases Option.or_eq_some_iff.mp hdate with hdate | ⟨-, hdate⟩
  · obtain ⟨time, htime, rfl⟩ := Option.map_eq_some_iff.mp hdate
    exact (Layout.localTime?_isValid htime).date
  · obtain ⟨instant, hinstant, rfl⟩ := Option.map_eq_some_iff.mp hdate
    obtain ⟨⟨time, offset⟩, hread, rfl⟩ := Option.map_eq_some_iff.mp hinstant
    obtain ⟨hfirst, hlast⟩ := Rfc3339.year_of_read hread
    obtain ⟨-, -, _, _, _, -, -, hoffset, -⟩ := Rfc3339.read_eq_some hread
    have hshift : (zone.offsetAt (time.seconds - offset) - offset).natAbs < 2 * secondsPerDay := by
      have hzone := hsound.natAbs_offsetAt_lt (time.seconds - offset)
      have hoffset := (Rfc3339.offset?_passes hoffset).1
      omega
    have hvalid := LocalTime.ofSeconds_date_isValid (Rfc3339.read_isValid hread) hfirst hlast hshift
      time.clock.nanos
    have hseconds : time.seconds + (zone.offsetAt (time.seconds - offset) - offset) =
        time.seconds - offset + zone.offsetAt (time.seconds - offset) := by omega
    rwa [hseconds] at hvalid

theorem Instant.seconds_utc (instant : Instant) : instant.utc.seconds = instant.seconds := by
  rw [utc, atOffset, LocalTime.seconds_ofSeconds, Int.add_zero]

/-- An instant of these years is one that UTC shows and that can be written. -/
theorem Instant.utc_isValid {instant : Instant} (hfirst : 0 ≤ instant.utc.date.year)
    (hlast : instant.utc.date.year ≤ 9999) :
    instant.utc.IsValid ∧ instant.IsRepresentable := by
  have hdate : instant.utc.date.IsValid := by
    apply Date.ofDayNumber_isValid
    · exact Int.le_trans (by decide) hfirst
    · exact Int.le_trans hlast (by decide)
  have hclock : instant.utc.clock.seconds < secondsPerDay := by
    show ((instant.seconds + 0) % secondsPerDay).toNat < secondsPerDay
    unfold secondsPerDay
    omega
  refine ⟨⟨hdate, hclock⟩, ?_⟩
  have hcycle := hdate.cycle
  have hseconds := instant.seconds_utc
  have hbounds : firstSecond = -8334601228800 ∧ lastSecond = 8210266876799 := by decide
  simp only [LocalTime.seconds, secondsPerDay] at hseconds hclock
  simp only [daysPerCycle, daysToEpoch] at hcycle
  unfold IsRepresentable
  omega

/-! ### Texts that are read again -/

/-- A date is read as it was written. -/
theorem readDate_text {date : Date} (hvalid : date.IsValid) (zone : Zone) :
    readDate zone date.text = some date := by
  have htrim : Text.trim date.text.toList = date.text.toList := by
    apply Text.trim_eq_self
    · simpa using date.trimStart_text []
    · rw [Date.text, String.toList_append]
      exact not_isWhite_last_padded 2 date.day _
  simp [readDate, htrim, Layout.date?_text hvalid]

section

variable {instant : Instant}

/-- An instant is read as it was written. -/
theorem readInstant_text (hfirst : 0 ≤ instant.utc.date.year)
    (hlast : instant.utc.date.year ≤ 9999) (hnanos : instant.nanos < nanosPerSecond)
    (zone : Zone) : readInstant zone instant.text = some instant := by
  have htrim : Text.trim instant.text.toList = instant.text.toList := by
    apply Text.trim_eq_self
    · simp only [Instant.text, String.toList_append, List.append_assoc]
      exact instant.utc.date.trimStart_text _
    · simp only [Instant.text, String.toList_append, String.reduceToList, List.getLast?_concat]
      rintro _ ⟨⟩
      decide
  have hread : Rfc3339.read instant.text.toList = some (instant.utc, 0) :=
    Rfc3339.read_text (Instant.utc_isValid hfirst hlast).1 hfirst hlast hnanos
  have hinstant : Rfc3339.instant? instant.text.toList = some instant := by
    simp only [Rfc3339.instant?, hread, Option.map_some, instant.seconds_utc, Int.sub_zero]
    rfl
  rw [readInstant, htrim, hinstant, Option.some_or]

/-- As SQL writes it, an instant is read to the second. -/
theorem readInstant_sqlText (hfirst : 0 ≤ instant.utc.date.year)
    (hlast : instant.utc.date.year ≤ 9999) (hnanos : instant.nanos < nanosPerSecond) :
    readInstant .utc instant.sqlText = some ⟨instant.seconds, 0⟩ := by
  obtain ⟨hvalid, hrange⟩ := Instant.utc_isValid hfirst hlast
  have htrim : Text.trim instant.sqlText.toList = instant.sqlText.toList := by
    apply Text.trim_eq_self
    · simp only [Instant.sqlText, String.toList_append, List.append_assoc]
      exact instant.utc.date.trimStart_text _
    · simp only [Instant.sqlText, ClockTime.text, String.toList_append, ← List.append_assoc]
      exact not_isWhite_last_padded 2 _ _
  have htime : naiveTime? instant.sqlText.toList =
      some ⟨instant.utc.date, instant.utc.clock.seconds, 0⟩ := by
    rw [naiveTime?, Instant.sqlText, Layout.localTime?_text hvalid hnanos, Option.some_or]
  have hrfc : Rfc3339.instant? instant.sqlText.toList = none := by
    rw [Rfc3339.instant?, Option.map_eq_none_iff, Option.eq_none_iff_forall_ne_some]
    rintro ⟨time, offset⟩ hread
    rw [naiveTime?_eq_none_of_read hread] at htime
    cases htime
  have hseconds : LocalTime.seconds ⟨instant.utc.date, instant.utc.clock.seconds, 0⟩ =
      instant.seconds := instant.seconds_utc
  have hutc : Zone.earliest? .utc instant.seconds = some instant.seconds := by
    simp [Zone.earliest?, Zone.utc, Zone.ofRows, Zone.changesFrom, Zone.earliestFrom]
  rw [readInstant, htrim, hrfc, Option.none_or, htime, Option.bind_some, Zone.instant?, hseconds,
    hutc, Option.bind_some]
  exact if_pos hrange

end

end FieldSearch.Calendar
