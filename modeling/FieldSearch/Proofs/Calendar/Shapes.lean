import FieldSearch.Calendar.Reading
import FieldSearch.Proofs.Text.White

/-! What stands in texts that are read as dates and times. Apart from digits, signs and white space
a layout reads its own marks only, each where it has one. So the colons tell texts of dates, which
have none, from those of local times; and an instant in the form of RFC 3339 has an offset behind
two colons, which no layout can read. A text is therefore read in one of these three ways at most.
-/

namespace FieldSearch.Calendar

/-- The character is no part of a number, of its sign, or of the white space before it. -/
def IsMark (c : Char) : Prop :=
  ¬c.isDigit ∧ ¬Text.isWhite c ∧ c ≠ '+' ∧ c ≠ '-'

instance (c : Char) : Decidable (IsMark c) :=
  inferInstanceAs (Decidable (_ ∧ _))

/-- Between the text and its rest stand these marks, and no others. -/
def Passes (marks s rest : List Char) : Prop :=
  ∃ written, s = written ++ rest ∧ ∀ c, IsMark c → written.count c = marks.count c

namespace Passes

variable {marks marks' s rest rest' : List Char}

theorem refl (s : List Char) : Passes [] s s :=
  ⟨[], rfl, fun _ _ => rfl⟩

theorem trans (hfirst : Passes marks s rest) (hsecond : Passes marks' rest rest') :
    Passes (marks ++ marks') s rest' := by
  obtain ⟨written, rfl, hwritten⟩ := hfirst
  obtain ⟨written', rfl, hwritten'⟩ := hsecond
  refine ⟨written ++ written', by simp, fun c hc => ?_⟩
  rw [List.count_append, List.count_append, hwritten c hc, hwritten' c hc]

theorem cons (c : Char) (rest : List Char) : Passes [c] (c :: rest) rest :=
  ⟨[c], rfl, fun _ _ => rfl⟩

/-- What is no mark does not count. -/
theorem unmarked {written : List Char} (hwritten : ∀ c ∈ written, ¬IsMark c) (rest : List Char) :
    Passes [] (written ++ rest) rest :=
  ⟨written, rfl, fun c hc => List.count_eq_zero.mpr fun hmem => hwritten c hmem hc⟩

theorem count (hpasses : Passes marks s rest) {c : Char} (hc : IsMark c) :
    s.count c = marks.count c + rest.count c := by
  obtain ⟨written, rfl, hwritten⟩ := hpasses
  rw [List.count_append, hwritten c hc]

end Passes

/-! ### Pieces -/

theorem digits_passes {digits : List Char} (hdigits : ∀ c ∈ digits, c.isDigit)
    (rest : List Char) : Passes [] (digits ++ rest) rest :=
  .unmarked (fun c hc hmark => hmark.1 (hdigits c hc)) rest

theorem trimStart_passes (s : List Char) : Passes [] s (Text.trimStart s) := by
  have hwhite : ∀ c ∈ s.takeWhile Text.isWhite, ¬IsMark c :=
    fun c hc hmark => hmark.2.1 (List.mem_takeWhile_imp hc)
  simpa [Text.trimStart] using Passes.unmarked hwhite (s.dropWhile Text.isWhite)

theorem leadingDigits_passes (most : Nat) (s : List Char) :
    Passes [] s (s.drop (leadingDigits most s).length) := by
  have hfront : leadingDigits most s <+: s :=
    (List.takeWhile_prefix _).trans (List.take_prefix most s)
  have hdigits : ∀ c ∈ leadingDigits most s, c.isDigit := fun c => List.mem_takeWhile_imp
  have hpasses := digits_passes hdigits (s.drop (leadingDigits most s).length)
  rwa [List.prefix_iff_eq_append.mp hfront] at hpasses

section

variable {s r : List Char}

theorem number?_passes {most n : Nat} (hread : number? most s = some (n, r)) : Passes [] s r := by
  obtain ⟨-, hread⟩ := Option.ite_none_left_eq_some.mp hread
  obtain ⟨-, rfl⟩ := Prod.mk.inj (Option.some.inj hread)
  exact leadingDigits_passes most s

theorem fixedNumber?_passes {width n : Nat} (hread : fixedNumber? width s = some (n, r)) :
    Passes [] s r := by
  obtain ⟨hwidth, hread⟩ := Option.ite_none_right_eq_some.mp hread
  obtain ⟨-, rfl⟩ := Prod.mk.inj (Option.some.inj hread)
  have hpasses := leadingDigits_passes width s
  rwa [hwidth] at hpasses

theorem after?_passes {p : Char → Bool} (hread : after? p s = some r) :
    ∃ c, p c ∧ Passes [c] s r := by
  cases s with
  | nil => cases hread
  | cons c s =>
      obtain ⟨hc, hread⟩ := Option.ite_none_right_eq_some.mp hread
      obtain rfl := Option.some.inj hread
      exact ⟨c, hc, .cons c s⟩

theorem mark_passes {c : Char} (hread : after? (· == c) s = some r) : Passes [c] s r := by
  obtain ⟨d, hd, hpasses⟩ := after?_passes hread
  rwa [eq_of_beq hd] at hpasses

end

/-! ### Layouts -/

namespace Layout

/-- The mark that an item reads. -/
def Item.marks : Item → List Char
  | .mark c => [c]
  | _ => []

theorem year?_passes {s r : List Char} {n : Int} (hread : year? s = some (n, r)) :
    Passes [] s r := by
  have hsign : ∀ sign ∈ ['-', '+'], ∀ s, Passes [] (sign :: s) s := by
    intro sign hsign s
    have hunmarked : ∀ c ∈ [sign], ¬IsMark c := by
      intro c hc hmark
      simp only [List.mem_cons, List.not_mem_nil, or_false] at hsign hc
      exact hsign.elim (fun h => hmark.2.2.2 (hc.trans h)) (fun h => hmark.2.2.1 (hc.trans h))
    exact .unmarked hunmarked s
  unfold year? at hread
  split at hread
  next s =>
      obtain ⟨⟨n, r'⟩, hn, ⟨⟩⟩ := Option.map_eq_some_iff.mp hread
      exact (hsign '-' (by simp) s).trans (number?_passes hn)
  next s =>
      obtain ⟨⟨n, r'⟩, hn, ⟨⟩⟩ := Option.map_eq_some_iff.mp hread
      exact (hsign '+' (by simp) s).trans (number?_passes hn)
  next =>
      obtain ⟨⟨n, r'⟩, hn, ⟨⟩⟩ := Option.map_eq_some_iff.mp hread
      exact number?_passes hn

/-- An item passes its own mark, if it is one. -/
theorem Item.read_passes {item : Item} {numbers numbers' : Numbers} {s r : List Char}
    (hread : item.read numbers s = some (numbers', r)) : Passes item.marks s r := by
  cases item with
  | year =>
      obtain ⟨⟨n, r'⟩, hn, ⟨⟩⟩ := Option.map_eq_some_iff.mp hread
      exact (trimStart_passes s).trans (year?_passes hn)
  | month | day | hour | minute | second =>
      obtain ⟨⟨n, r'⟩, hn, ⟨⟩⟩ := Option.map_eq_some_iff.mp hread
      exact (trimStart_passes s).trans (number?_passes hn)
  | mark c =>
      obtain ⟨r', hr, ⟨⟩⟩ := Option.map_eq_some_iff.mp hread
      exact mark_passes hr
  | gap =>
      obtain ⟨-, rfl⟩ := Prod.mk.inj (Option.some.inj hread)
      exact trimStart_passes s

/-- A text that a layout reads holds the marks of the layout. -/
theorem readFrom_passes {layout : List Item} {numbers numbers' : Numbers} {s : List Char}
    (hread : readFrom layout numbers s = some numbers') :
    Passes (layout.flatMap Item.marks) s [] := by
  induction layout generalizing numbers s with
  | nil =>
      obtain ⟨hempty, -⟩ := Option.ite_none_right_eq_some.mp hread
      rw [List.isEmpty_iff.mp hempty]
      exact .refl []
  | cons item layout ih =>
      obtain ⟨⟨numbers₁, r⟩, hitem, hrest⟩ := Option.bind_eq_some_iff.mp hread
      exact (Item.read_passes hitem).trans (ih hrest)

theorem date?_passes {s : List Char} {date : Date} (hdate : date? s = some date) :
    ∃ layout ∈ dates, Passes (layout.flatMap Item.marks) s [] := by
  obtain ⟨layout, hmem, hlayout⟩ := List.exists_of_findSome?_eq_some hdate
  obtain ⟨numbers, hread, -⟩ := Option.bind_eq_some_iff.mp hlayout
  exact ⟨layout, hmem, readFrom_passes hread⟩

theorem localTime?_passes {s : List Char} {time : LocalTime} (htime : localTime? s = some time) :
    ∃ layout ∈ localTimes, Passes (layout.flatMap Item.marks) s [] := by
  obtain ⟨layout, hmem, hlayout⟩ := List.exists_of_findSome?_eq_some htime
  obtain ⟨numbers, hread, -⟩ := Option.bind_eq_some_iff.mp hlayout
  exact ⟨layout, hmem, readFrom_passes hread⟩

/-- The text of a local time is not one of a date: it has a colon. -/
theorem date?_eq_none_of_localTime? {s : List Char} {time : LocalTime}
    (htime : localTime? s = some time) : date? s = none := by
  rw [Option.eq_none_iff_forall_ne_some]
  intro date hdate
  obtain ⟨layout, hlayout, hpasses⟩ := date?_passes hdate
  obtain ⟨layout', hlayout', hpasses'⟩ := localTime?_passes htime
  have hcolons : ∀ layout ∈ dates, ∀ layout' ∈ localTimes,
      (layout.flatMap Item.marks).count ':' ≠ (layout'.flatMap Item.marks).count ':' := by decide
  have hcolon : IsMark ':' := by decide
  have hcount := (hpasses.count hcolon).symm.trans (hpasses'.count hcolon)
  exact hcolons layout hlayout layout' hlayout' hcount

end Layout

/-- The layouts of texts without an offset. -/
theorem naiveTime?_passes {s : List Char} {time : LocalTime} (htime : naiveTime? s = some time) :
    ∃ layout ∈ Layout.localTimes ++ Layout.dates,
      Passes (layout.flatMap Layout.Item.marks) s [] := by
  rcases Option.or_eq_some_iff.mp htime with hlocal | ⟨-, hmidnight⟩
  · obtain ⟨layout, hmem, hpasses⟩ := Layout.localTime?_passes hlocal
    exact ⟨layout, List.mem_append_left _ hmem, hpasses⟩
  · obtain ⟨date, hdate, -⟩ := Option.map_eq_some_iff.mp hmidnight
    obtain ⟨layout, hmem, hpasses⟩ := Layout.date?_passes hdate
    exact ⟨layout, List.mem_append_right _ hmem, hpasses⟩

theorem naiveTime?_eq_none_iff {s : List Char} :
    naiveTime? s = none ↔ Layout.localTime? s = none ∧ Layout.date? s = none := by
  simp [naiveTime?]

/-! ### RFC 3339 -/

namespace Rfc3339

theorem fraction?_passes {n : Nat} {s r : List Char} (hread : fraction? s = some (n, r)) :
    ∃ point, (point = [] ∨ point = ['.']) ∧ Passes point s r := by
  unfold fraction? at hread
  split at hread
  next s =>
      obtain ⟨-, hread⟩ := Option.ite_none_left_eq_some.mp hread
      obtain ⟨-, rfl⟩ := Prod.mk.inj (Option.some.inj hread)
      have hdigits : ∀ c ∈ s.takeWhile Char.isDigit, c.isDigit := fun c => List.mem_takeWhile_imp
      have hpasses := digits_passes hdigits (s.dropWhile Char.isDigit)
      rw [List.takeWhile_append_dropWhile] at hpasses
      exact ⟨['.'], .inr rfl, (Passes.cons '.' s).trans hpasses⟩
  next =>
      obtain ⟨-, rfl⟩ := Prod.mk.inj (Option.some.inj hread)
      exact ⟨[], .inl rfl, .refl s⟩

/-- An offset is less than a day. It is a letter, or two numbers behind a sign with a colon between
them. -/
theorem offset?_passes {s : List Char} {offset : Int} (hread : offset? s = some offset) :
    offset.natAbs < secondsPerDay ∧
      ∃ marks ∈ [['Z'], ['z'], ['+', ':'], ['-', ':'], ['−', ':']], Passes marks s [] := by
  unfold offset? at hread
  split at hread
  next =>
      obtain rfl := Option.some.inj hread
      exact ⟨by decide, ['Z'], by simp, .cons 'Z' []⟩
  next =>
      obtain rfl := Option.some.inj hread
      exact ⟨by decide, ['z'], by simp, .cons 'z' []⟩
  next sign r _ _ =>
      obtain ⟨⟨hour, r₁⟩, hhours, hread⟩ := Option.bind_eq_some_iff.mp hread
      obtain ⟨r₂, hcolon, hread⟩ := Option.bind_eq_some_iff.mp hread
      obtain ⟨⟨minute, r₃⟩, hminutes, hread⟩ := Option.bind_eq_some_iff.mp hread
      obtain ⟨hrange, hsigned⟩ := Option.ite_none_right_eq_some.mp hread
      simp only [Bool.and_eq_true, List.isEmpty_iff, decide_eq_true_eq] at hrange
      obtain ⟨⟨rfl, hhour⟩, hminute⟩ := hrange
      have hpasses : Passes [sign, ':'] (sign :: r) [] :=
        (Passes.cons sign r).trans ((fixedNumber?_passes hhours).trans ((mark_passes hcolon).trans
          (fixedNumber?_passes hminutes)))
      have hseconds : ((hour : Int) * 3600 + minute * 60).natAbs < secondsPerDay := by
        unfold secondsPerDay
        omega
      dsimp only at hsigned
      by_cases hplus : sign = '+'
      · rw [if_pos hplus] at hsigned
        obtain rfl := Option.some.inj hsigned
        exact ⟨hseconds, [sign, ':'], by simp [hplus], hpasses⟩
      · rw [if_neg hplus] at hsigned
        obtain ⟨hminus, hsigned⟩ := Option.ite_none_right_eq_some.mp hsigned
        obtain rfl := Option.some.inj hsigned
        rw [Int.natAbs_neg]
        exact ⟨hseconds, [sign, ':'], by rcases hminus with rfl | rfl <;> simp, hpasses⟩
  next => cases hread

/-- What a text has that is read: a year of four digits, the numbers of a date and of a time of day,
and before its offset two lines, a divider and two colons, perhaps also the point of a fraction. -/
theorem read_eq_some {s : List Char} {time : LocalTime} {offset : Int}
    (hread : read s = some (time, offset)) :
    (∃ year r month day, fixedNumber? 4 s = some (year, r) ∧
      Date.of? year month day = some time.date) ∧
    (∃ hour minute second nanos, ClockTime.of? hour minute second nanos = some time.clock) ∧
    ∃ divider point ending, isDivider divider ∧ (point = [] ∨ point = ['.']) ∧
      offset? ending = some offset ∧
      Passes (['-', '-', divider, ':', ':'] ++ point) s ending := by
  obtain ⟨⟨year, r⟩, hyear, hread⟩ := Option.bind_eq_some_iff.mp hread
  obtain ⟨_, hline, hread⟩ := Option.bind_eq_some_iff.mp hread
  obtain ⟨⟨month, _⟩, hmonth, hread⟩ := Option.bind_eq_some_iff.mp hread
  obtain ⟨_, hline', hread⟩ := Option.bind_eq_some_iff.mp hread
  obtain ⟨⟨day, _⟩, hday, hread⟩ := Option.bind_eq_some_iff.mp hread
  obtain ⟨_, hdivider, hread⟩ := Option.bind_eq_some_iff.mp hread
  obtain ⟨⟨hour, _⟩, hhour, hread⟩ := Option.bind_eq_some_iff.mp hread
  obtain ⟨_, hcolon, hread⟩ := Option.bind_eq_some_iff.mp hread
  obtain ⟨⟨minute, _⟩, hminute, hread⟩ := Option.bind_eq_some_iff.mp hread
  obtain ⟨_, hcolon', hread⟩ := Option.bind_eq_some_iff.mp hread
  obtain ⟨⟨second, _⟩, hsecond, hread⟩ := Option.bind_eq_some_iff.mp hread
  obtain ⟨⟨nanos, ending⟩, hfraction, hread⟩ := Option.bind_eq_some_iff.mp hread
  obtain ⟨_, hoffset, hread⟩ := Option.bind_eq_some_iff.mp hread
  obtain ⟨date, hdate, hread⟩ := Option.bind_eq_some_iff.mp hread
  obtain ⟨clock, hclock, hread⟩ := Option.bind_eq_some_iff.mp hread
  obtain ⟨rfl, rfl⟩ := Prod.mk.inj (Option.some.inj hread)
  obtain ⟨divider, hdivides, hdivider⟩ := after?_passes hdivider
  obtain ⟨point, hpoint, hfraction⟩ := fraction?_passes hfraction
  have hlines := (fixedNumber?_passes hyear).trans ((mark_passes hline).trans
    ((fixedNumber?_passes hmonth).trans ((mark_passes hline').trans (fixedNumber?_passes hday))))
  have hcolons := (fixedNumber?_passes hhour).trans ((mark_passes hcolon).trans
    ((fixedNumber?_passes hminute).trans ((mark_passes hcolon').trans
      ((fixedNumber?_passes hsecond).trans hfraction))))
  exact ⟨⟨year, r, month, day, hyear, hdate⟩, ⟨hour, minute, second, nanos, hclock⟩,
    divider, point, ending, hdivides, hpoint, hoffset, hlines.trans (hdivider.trans hcolons)⟩

/-- All marks of an instant: two colons, and behind them a third one or a letter. -/
theorem passes_of_read {s : List Char} {time : LocalTime} {offset : Int}
    (hread : read s = some (time, offset)) :
    ∃ marks, Passes marks s [] ∧ 3 ≤ marks.count ':' + marks.count 'Z' + marks.count 'z' ∧
      '%' ∉ marks := by
  obtain ⟨-, -, divider, point, ending, hdivider, hpoint, hoffset, hpasses⟩ := read_eq_some hread
  obtain ⟨-, marks, hmarks, hending⟩ := offset?_passes hoffset
  have hendings : ∀ marks ∈ [['Z'], ['z'], ['+', ':'], ['-', ':'], ['−', ':']],
      1 ≤ marks.count ':' + marks.count 'Z' + marks.count 'z' ∧ '%' ∉ marks := by decide
  obtain ⟨hlast, hpercent⟩ := hendings marks hmarks
  refine ⟨_, hpasses.trans hending, ?_, ?_⟩
  · have hcolons : 2 ≤ ['-', '-', divider, ':', ':'].count ':' := by
      simp [List.count_cons]
    simp only [List.count_append]
    omega
  · have hdivides : '%' ≠ divider := by
      rintro rfl
      cases hdivider
    have hpoints : '%' ∉ point := by rcases hpoint with rfl | rfl <;> decide
    simp [hdivides, hpoints, hpercent]

end Rfc3339

/-! ### One way at most -/

/-- A text without an offset is not one with an offset. -/
theorem naiveTime?_eq_none_of_read {s : List Char} {time : LocalTime} {offset : Int}
    (hread : Rfc3339.read s = some (time, offset)) : naiveTime? s = none := by
  rw [Option.eq_none_iff_forall_ne_some]
  intro naive hnaive
  obtain ⟨marks, hpasses, hmany, -⟩ := Rfc3339.passes_of_read hread
  obtain ⟨layout, hlayout, hpasses'⟩ := naiveTime?_passes hnaive
  -- no layout has more than two of the three colons and letters
  have hfew : ∀ layout ∈ Layout.localTimes ++ Layout.dates,
      (layout.flatMap Layout.Item.marks).count ':' + (layout.flatMap Layout.Item.marks).count 'Z' +
        (layout.flatMap Layout.Item.marks).count 'z' ≤ 2 := by decide
  have hfew := hfew layout hlayout
  have hcount : ∀ c, IsMark c → marks.count c = (layout.flatMap Layout.Item.marks).count c :=
    fun c hc => (hpasses.count hc).symm.trans (hpasses'.count hc)
  rw [hcount ':' (by decide), hcount 'Z' (by decide), hcount 'z' (by decide)] at hmany
  omega

/-- A text with a percent sign is no date and no time. -/
theorem reading_eq_none_of_percent {zone : Zone} {text : String} (hmem : '%' ∈ text.toList) :
    readInstant zone text = none ∧ readDate zone text = none := by
  have hpercent : IsMark '%' := by decide
  have htrim := Text.mem_trim hpercent.2.1 hmem
  have hread : Rfc3339.read (Text.trim text.toList) = none := by
    rw [Option.eq_none_iff_forall_ne_some]
    rintro ⟨time, offset⟩ hread
    obtain ⟨marks, hpasses, -, hno⟩ := Rfc3339.passes_of_read hread
    have hcount := hpasses.count hpercent
    rw [List.count_eq_zero.mpr hno, List.count_nil, List.count_eq_zero] at hcount
    exact hcount htrim
  have hnaive : naiveTime? (Text.trim text.toList) = none := by
    rw [Option.eq_none_iff_forall_ne_some]
    intro time htime
    obtain ⟨layout, hlayout, hpasses⟩ := naiveTime?_passes htime
    have hno : ∀ layout ∈ Layout.localTimes ++ Layout.dates,
        (layout.flatMap Layout.Item.marks).count '%' = 0 := by decide
    have hcount := hpasses.count hpercent
    rw [hno layout hlayout, List.count_nil, List.count_eq_zero] at hcount
    exact hcount htrim
  obtain ⟨hlocal, hdate⟩ := naiveTime?_eq_none_iff.mp hnaive
  exact ⟨by simp [readInstant, Rfc3339.instant?, hread, hnaive],
    by simp [readDate, Rfc3339.instant?, hread, hlocal, hdate]⟩

/-! ### Dates of instants -/

section

variable {zone : Zone} {text : String} {time : LocalTime} {instant : Instant}

/-- The date of a text without an offset is the one that it shows. -/
theorem readDate_of_naiveTime? (htime : naiveTime? (Text.trim text.toList) = some time) :
    readDate zone text = some time.date := by
  rcases Option.or_eq_some_iff.mp htime with hlocal | ⟨-, hmidnight⟩
  · simp [readDate, Layout.date?_eq_none_of_localTime? hlocal, hlocal]
  · obtain ⟨date, hdate, rfl⟩ := Option.map_eq_some_iff.mp hmidnight
    simp [readDate, hdate]

/-- The date of a text with an offset is the one in the zone. -/
theorem readDate_of_instant? (hinstant : Rfc3339.instant? (Text.trim text.toList) = some instant) :
    readDate zone text = some (zone.localTime instant).date := by
  obtain ⟨⟨time, offset⟩, hread, -⟩ := Option.map_eq_some_iff.mp hinstant
  obtain ⟨hlocal, hdate⟩ := naiveTime?_eq_none_iff.mp (naiveTime?_eq_none_of_read hread)
  simp only [readDate, hlocal, hdate, hinstant, Option.map_none, Option.none_or, Option.map_some]

end

end FieldSearch.Calendar
