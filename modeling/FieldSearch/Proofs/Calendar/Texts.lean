import FieldSearch.Calendar.Digits
import FieldSearch.Calendar.Instant
import FieldSearch.Proofs.Calendar.Days
import FieldSearch.Proofs.Text.Marks

/-! What the texts of dates and times tell. Numbers are written in digits, with marks between them
that are no digits, so the numbers can be told from the text: a date is known by its text, and an
instant by its text in SQL up to the fraction of its second. -/

namespace FieldSearch.Calendar

/-! ### Numbers -/

/-- The number that digits write is the one that they were made from. -/
theorem numberOf_padded (width n : Nat) : numberOf (padded width n).toList = n := by
  have hfold : ∀ digits, numberOf digits = Nat.ofDigitChars 10 digits 0 := by
    intro digits
    rw [Nat.ofDigitChars_eq_foldl]
    simp only [numberOf, digitValue, Nat.mul_comm]
  rw [hfold]
  simp [padded, Nat.ofDigitChars_append]

theorem padded_inj {width n m : Nat} (heq : (padded width n).toList = (padded width m).toList) :
    n = m := by
  rw [← numberOf_padded width n, heq, numberOf_padded]

theorem isDigit_of_mem_padded {width n : Nat} {c : Char} (hmem : c ∈ (padded width n).toList) :
    c.isDigit := by
  simp only [padded, String.toList_ofList, List.mem_append, List.mem_replicate] at hmem
  rcases hmem with ⟨-, rfl⟩ | hmem
  · rfl
  · exact Nat.isDigit_of_mem_toDigits (by decide) (by decide) hmem

/-- What is no digit does not stand in a number. -/
theorem not_mem_padded {c : Char} (hc : c.isDigit = false) (width n : Nat) :
    c ∉ (padded width n).toList := fun hmem => by
  rw [isDigit_of_mem_padded hmem] at hc
  cases hc

/-! ### Dates -/

theorem minus_mem_yearText_iff {year : Int} : '-' ∈ (yearText year).toList ↔ year < 0 := by
  have hminus : ∀ width n, '-' ∉ (padded width n).toList := not_mem_padded (by decide)
  unfold yearText
  split
  · simpa
  · split <;> simp only [String.toList_append, String.reduceToList, List.mem_append,
      List.mem_singleton, Char.reduceEq, or_self, *]

theorem plus_mem_yearText_iff {year : Int} : '+' ∈ (yearText year).toList ↔ 9999 < year := by
  have hplus : ∀ width n, '+' ∉ (padded width n).toList := not_mem_padded (by decide)
  unfold yearText
  split
  · simp only [String.toList_append, String.reduceToList, List.mem_append, List.mem_singleton,
      Char.reduceEq, hplus, or_self, false_iff]
    omega
  · split
    · simp only [hplus, false_iff]
      omega
    · simp
      omega

/-- Years before and after those of four digits are told by their signs. -/
theorem yearText_inj {year year' : Int}
    (heq : (yearText year).toList = (yearText year').toList) : year = year' := by
  have hbefore : year < 0 ↔ year' < 0 := by
    rw [← minus_mem_yearText_iff, heq, minus_mem_yearText_iff]
  have hafter : 9999 < year ↔ 9999 < year' := by
    rw [← plus_mem_yearText_iff, heq, plus_mem_yearText_iff]
  have hnumber : year.natAbs = year'.natAbs := by
    unfold yearText at heq
    by_cases hearly : year < 0
    · rw [if_pos hearly, if_pos (hbefore.mp hearly)] at heq
      exact padded_inj (by simpa using heq)
    · rw [if_neg hearly, if_neg (hbefore.not.mp hearly)] at heq
      by_cases hlate : 9999 < year
      · rw [if_neg (by omega), if_neg (by omega)] at heq
        exact padded_inj (by simpa using heq)
      · rw [if_pos (by omega), if_pos (by omega)] at heq
        exact padded_inj heq
  omega

/-- A date is known by its text. -/
theorem Date.text_inj {date date' : Date} (heq : date.text = date'.text) : date = date' := by
  have hmark : ∀ n, '-' ∉ (padded 2 n).toList := not_mem_padded (by decide) 2
  have hlist := congrArg String.toList heq
  simp only [text, String.toList_append, String.reduceToList, List.append_assoc, List.cons_append,
    List.nil_append] at hlist
  rw [← List.cons_append, ← List.append_assoc, ← List.cons_append, ← List.append_assoc] at hlist
  obtain ⟨hlist, hday⟩ := append_cons_inj_right (hmark _) (hmark _) hlist
  obtain ⟨hyear, hmonth⟩ := append_cons_inj_right (hmark _) (hmark _) hlist
  cases date
  cases date'
  obtain rfl := yearText_inj hyear
  obtain rfl := padded_inj hmonth
  obtain rfl := padded_inj hday
  rfl

/-- A date is written in digits and signs. -/
theorem Date.not_mem_text {c : Char} (hdigit : c.isDigit = false) (hminus : c ≠ '-')
    (hplus : c ≠ '+') (date : Date) : c ∉ date.text.toList := by
  have hyear : c ∉ (yearText date.year).toList := by
    unfold yearText
    split
    · simp [hminus, not_mem_padded hdigit]
    · split <;> simp [hplus, not_mem_padded hdigit]
  simp [text, hyear, hminus, not_mem_padded hdigit]

/-! ### Instants -/

/-- The minute that an instant is in, and the second of the minute that a clock shows. It shows 60
in a leap second, or what it shows later in the zone of an odd offset. -/
def Instant.shownSecond (instant : Instant) : Int × Nat :=
  (instant.seconds / 60, (instant.seconds % 60).toNat + instant.nanos / nanosPerSecond)

/-- A time of day is known by its text up to the fraction of the second. -/
theorem ClockTime.text_inj {clock clock' : ClockTime}
    (heq : clock.text.toList = clock'.text.toList) :
    clock.seconds / 60 = clock'.seconds / 60 ∧
      clock.seconds % 60 + clock.nanos / nanosPerSecond =
        clock'.seconds % 60 + clock'.nanos / nanosPerSecond := by
  have hmark : ∀ n, ':' ∉ (padded 2 n).toList := not_mem_padded (by decide) 2
  simp only [text, String.toList_append, String.reduceToList, List.append_assoc, List.cons_append,
    List.nil_append] at heq
  obtain ⟨hhour, heq⟩ := append_cons_inj (hmark _) (hmark _) heq
  obtain ⟨hminute, hsecond⟩ := append_cons_inj (hmark _) (hmark _) heq
  have hhour := padded_inj hhour
  have hminute := padded_inj hminute
  exact ⟨by omega, padded_inj hsecond⟩

theorem ClockTime.text_congr {clock clock' : ClockTime}
    (hminute : clock.seconds / 60 = clock'.seconds / 60)
    (hsecond : clock.seconds % 60 + clock.nanos / nanosPerSecond =
      clock'.seconds % 60 + clock'.nanos / nanosPerSecond) : clock.text = clock'.text := by
  have hhour : clock.seconds / 3600 = clock'.seconds / 3600 := by omega
  simp only [text, hhour, hminute, hsecond]

/-- Instants look the same in SQL if a clock shows the same, and only then. -/
theorem Instant.sqlText_eq_iff {instant instant' : Instant} :
    instant.sqlText = instant'.sqlText ↔ instant.shownSecond = instant'.shownSecond := by
  have hgap : ∀ date : Date, ' ' ∉ date.text.toList := fun date =>
    date.not_mem_text (by decide) (by decide) (by decide)
  simp only [shownSecond, Prod.mk.injEq]
  constructor
  · intro heq
    have hlist := congrArg String.toList heq
    simp only [sqlText, String.toList_append, String.reduceToList, List.append_assoc,
      List.cons_append, List.nil_append] at hlist
    obtain ⟨hdate, hclock⟩ := append_cons_inj (hgap _) (hgap _) hlist
    have hday := Date.ofDayNumber_inj (Date.text_inj (String.toList_inj.mp hdate))
    obtain ⟨hminute, hsecond⟩ := ClockTime.text_inj hclock
    simp only [utc, atOffset, LocalTime.ofSeconds, secondsPerDay] at hday hminute hsecond
    omega
  · rintro ⟨hminute, hsecond⟩
    have hday : instant.utc.date = instant'.utc.date := by
      simp only [utc, atOffset, LocalTime.ofSeconds, secondsPerDay]
      congr 1
      omega
    have hclock : instant.utc.clock.text = instant'.utc.clock.text := by
      apply ClockTime.text_congr <;>
        simp only [utc, atOffset, LocalTime.ofSeconds, secondsPerDay] <;> omega
    simp only [sqlText, hday, hclock]

/-- The text of an instant has a gap in it, that of a date has none. -/
theorem Instant.sqlText_ne_text (instant : Instant) (date : Date) :
    instant.sqlText ≠ date.text := by
  intro heq
  have hgap : ' ' ∉ date.text.toList := date.not_mem_text (by decide) (by decide) (by decide)
  rw [← heq] at hgap
  simp [sqlText] at hgap

theorem Instant.not_mem_sqlText {c : Char} (hdigit : c.isDigit = false)
    (hmark : c ∉ ['-', '+', ':', ' ']) (instant : Instant) : c ∉ instant.sqlText.toList := by
  simp only [List.mem_cons, List.not_mem_nil, or_false, not_or] at hmark
  obtain ⟨hminus, hplus, hcolon, hgap⟩ := hmark
  simp [sqlText, ClockTime.text, Date.not_mem_text hdigit hminus hplus, not_mem_padded hdigit,
    hcolon, hgap]

end FieldSearch.Calendar
