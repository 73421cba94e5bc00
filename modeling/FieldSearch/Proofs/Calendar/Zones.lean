import FieldSearch.Calendar.ZoneTable
import FieldSearch.Proofs.Calendar.Clock

/-! Reading local times on the clock of a zone. The stretches between changes of the offset are
searched from the first on, and within a stretch the clock shows a time once at most; so the first
hit is the earliest second that shows it, and without a hit the time was skipped. Offsets of less
than a day, and changes that begin some days after the first second of all, make sure that a hit
which is too early to be an instant is the only one. -/

namespace FieldSearch.Calendar

namespace Zone

/-- The changes of a zone are in order and not among the first days of the calendar, and its clock
is less than a day ahead or behind. -/
structure IsSound (zone : Zone) : Prop where
  ordered : zone.changes.Pairwise fun earlier later => earlier.1 ≤ later.1
  late : ∀ change ∈ zone.changes, Instant.firstSecond + 2 * secondsPerDay ≤ change.1
  near_initial : zone.initial.natAbs < secondsPerDay
  near : ∀ change ∈ zone.changes, change.2.natAbs < secondsPerDay

/-! ### The table -/

theorem forall_mem_changesFrom {offsets : List Int} {p : Int → Prop} (hzero : p 0)
    (hoffsets : ∀ offset ∈ offsets, p offset) {second : Int} {rows : List (Nat × Nat)}
    {change : Int × Int} (hchange : change ∈ changesFrom offsets second rows) :
    second ≤ change.1 ∧ p change.2 := by
  induction rows generalizing second with
  | nil => cases hchange
  | cons row rows ih =>
      rcases List.mem_cons.mp hchange with rfl | hlater
      · refine ⟨by simp, ?_⟩
        by_cases hkind : row.2 < offsets.length
        · simpa [hkind] using hoffsets _ (List.getElem_mem hkind)
        · simpa [hkind] using hzero
      · obtain ⟨hafter, hoffset⟩ := ih hlater
        exact ⟨by omega, hoffset⟩

theorem changesFrom_ordered (offsets : List Int) (second : Int) (rows : List (Nat × Nat)) :
    (changesFrom offsets second rows).Pairwise fun earlier later => earlier.1 ≤ later.1 := by
  induction rows generalizing second with
  | nil => exact .nil
  | cons row rows ih =>
      refine .cons (fun later hlater => ?_) (ih _)
      exact (forall_mem_changesFrom (p := fun _ => True) trivial (fun _ _ => trivial) hlater).1

/-- Rows say how long it takes to the next change, so their changes are in order. -/
theorem ofRows_isSound {name : String} {offsets : List Int} {start : Int}
    {rows : List (Nat × Nat)} (hoffsets : ∀ offset ∈ offsets, offset.natAbs < secondsPerDay)
    (hstart : Instant.firstSecond + 2 * secondsPerDay ≤ start) :
    (ofRows name offsets start rows).IsSound := by
  have hchanges : ∀ change ∈ changesFrom offsets start rows,
      start ≤ change.1 ∧ change.2.natAbs < secondsPerDay := fun change =>
    forall_mem_changesFrom (by decide) hoffsets
  refine ⟨changesFrom_ordered _ _ _, fun change hchange => ?_, ?_, fun change hchange => ?_⟩
  · exact hstart.trans (hchanges change hchange).1
  · cases offsets with
    | nil => exact Nat.zero_lt_of_lt (Nat.lt_succ_self _)
    | cons first offsets => exact hoffsets first (by simp)
  · exact (hchanges change hchange).2

theorem isSound_of_mem_all {zone : Zone} (hzone : zone ∈ all) : zone.IsSound := by
  have hnewYork : newYork.IsSound := ofRows_isSound (by decide) (by decide)
  simp only [all, List.mem_cons, List.not_mem_nil, or_false] at hzone
  rcases hzone with rfl | rfl | rfl | rfl | rfl | rfl | rfl | rfl | rfl | rfl | rfl | rfl | rfl | rfl
  case inr.inr.inr.inr.inl => exact ⟨hnewYork.1, hnewYork.2, hnewYork.3, hnewYork.4⟩
  all_goals exact ofRows_isSound (by decide) (by decide)

/-! ### The earliest second -/

/-- What is shown at a second before any of the changes. -/
theorem offsetAfter_of_before {second offset : Int} {changes : List (Int × Int)}
    (hbefore : ∀ change ∈ changes, second < change.1) :
    offsetAfter second offset changes = offset := by
  cases changes with
  | nil => rfl
  | cons change changes => exact if_pos (hbefore change (by simp))

section Earliest

variable {shown second offset : Int} {start : Option Int} {changes : List (Int × Int)}

theorem earliestFrom_nil :
    earliestFrom shown start offset [] =
      if ∀ first ∈ start, first ≤ shown - offset then some (shown - offset) else none := by
  cases start <;> simp [earliestFrom]

theorem earliestFrom_cons {stop next : Int} :
    earliestFrom shown start offset ((stop, next) :: changes) =
      if (∀ first ∈ start, first ≤ shown - offset) ∧ shown - offset < stop then
        some (shown - offset)
      else earliestFrom shown (some stop) next changes := by
  cases start <;> simp [earliestFrom]

/-- What is found is shown at a second that is not before the start. -/
theorem earliestFrom_shows
    (hordered : changes.Pairwise fun earlier later => earlier.1 ≤ later.1)
    (hstart : ∀ first ∈ start, ∀ change ∈ changes, first ≤ change.1)
    (hfound : earliestFrom shown start offset changes = some second) :
    (∀ first ∈ start, first ≤ second) ∧ second + offsetAfter second offset changes = shown := by
  induction changes generalizing start offset with
  | nil =>
      rw [earliestFrom_nil] at hfound
      obtain ⟨hafter, hsecond⟩ := Option.ite_none_right_eq_some.mp hfound
      obtain rfl := Option.some.inj hsecond
      exact ⟨hafter, by simp [offsetAfter]⟩
  | cons change changes ih =>
      obtain ⟨hlater, hrest⟩ := List.pairwise_cons.mp hordered
      obtain ⟨stop, next⟩ := change
      rw [earliestFrom_cons] at hfound
      split at hfound
      next hhere =>
          obtain rfl := Option.some.inj hfound
          exact ⟨hhere.1, by simp [offsetAfter, hhere.2]⟩
      next =>
          obtain ⟨hafter, hshows⟩ := ih hrest (by simpa using hlater) hfound
          have hstop : stop ≤ second := hafter stop rfl
          refine ⟨fun first hfirst => ?_, ?_⟩
          · exact (hstart first hfirst (stop, next) (by simp)).trans hstop
          · simpa [offsetAfter, Int.not_lt.mpr hstop] using hshows

/-- Whatever second shows the time, one is found that is no later. -/
theorem exists_earliestFrom_le (hstart : ∀ first ∈ start, first ≤ second)
    (hshows : second + offsetAfter second offset changes = shown) :
    ∃ earliest, earliestFrom shown start offset changes = some earliest ∧ earliest ≤ second := by
  induction changes generalizing start offset with
  | nil =>
      have hsecond : shown - offset = second := by
        simp only [offsetAfter] at hshows
        omega
      rw [earliestFrom_nil, hsecond, if_pos hstart]
      exact ⟨second, rfl, Int.le_refl _⟩
  | cons change changes ih =>
      obtain ⟨stop, next⟩ := change
      rw [earliestFrom_cons]
      by_cases hbefore : second < stop
      · have hsecond : shown - offset = second := by
          simp only [offsetAfter, if_pos hbefore] at hshows
          omega
        rw [hsecond, if_pos ⟨hstart, hbefore⟩]
        exact ⟨second, rfl, Int.le_refl _⟩
      · have hstop : stop ≤ second := Int.not_lt.mp hbefore
        split
        next hhere => exact ⟨_, rfl, (Int.le_of_lt hhere.2).trans hstop⟩
        next =>
          refine ih (by simpa using hstop) ?_
          simpa only [offsetAfter, if_neg hbefore] using hshows

end Earliest

/-- The clock of the zone shows this number of local seconds at the second. -/
def Shows (zone : Zone) (shown second : Int) : Prop :=
  second + zone.offsetAt second = shown

variable {zone : Zone}

theorem IsSound.earliest?_shows (hsound : zone.IsSound) {shown second : Int}
    (hfound : zone.earliest? shown = some second) : zone.Shows shown second :=
  (earliestFrom_shows hsound.ordered (by simp) hfound).2

theorem exists_earliest?_le {shown second : Int} (hshows : zone.Shows shown second) :
    ∃ earliest, zone.earliest? shown = some earliest ∧ earliest ≤ second :=
  exists_earliestFrom_le (by simp) hshows

/-- Offsets come from the table of the zone. -/
theorem offsetAfter_cases (second offset : Int) (changes : List (Int × Int)) :
    offsetAfter second offset changes = offset ∨
      ∃ change ∈ changes, offsetAfter second offset changes = change.2 := by
  induction changes generalizing offset with
  | nil => exact .inl rfl
  | cons change changes ih =>
      unfold offsetAfter
      split
      · exact .inl rfl
      · rcases ih change.2 with hsame | ⟨later, hlater, hoffset⟩
        · exact .inr ⟨change, by simp, hsame⟩
        · exact .inr ⟨later, by simp [hlater], hoffset⟩

theorem IsSound.natAbs_offsetAt_lt (hsound : zone.IsSound) (second : Int) :
    (zone.offsetAt second).natAbs < secondsPerDay := by
  unfold offsetAt
  rcases offsetAfter_cases second zone.initial zone.changes with hsame | ⟨change, hchange, hoffset⟩
  · rw [hsame]
    exact hsound.near_initial
  · rw [hoffset]
    exact hsound.near change hchange

/-- Among the first days there is no change. -/
theorem IsSound.offsetAt_of_early (hsound : zone.IsSound) {second : Int}
    (hearly : second < Instant.firstSecond + 2 * secondsPerDay) :
    zone.offsetAt second = zone.initial :=
  offsetAfter_of_before fun change hchange => hearly.trans_le (hsound.late change hchange)

/-- A time that is shown before the first second of all is not shown again. -/
theorem IsSound.eq_of_early (hsound : zone.IsSound) {shown second other : Int}
    (hshows : zone.Shows shown second) (hother : zone.Shows shown other)
    (hearly : second < Instant.firstSecond) : other = second := by
  have hnear := hsound.natAbs_offsetAt_lt second
  have hnear' := hsound.natAbs_offsetAt_lt other
  unfold Shows at hshows hother
  have hfirst : zone.offsetAt second = zone.initial := hsound.offsetAt_of_early (by omega)
  have hsecond : zone.offsetAt other = zone.initial := by
    apply hsound.offsetAt_of_early
    omega
  omega

end Zone

/-! ### Instants -/

/-- The second is not before the first one of all nor after the last. -/
def Instant.IsRepresentable (instant : Instant) : Prop :=
  firstSecond ≤ instant.seconds ∧ instant.seconds ≤ lastSecond

namespace Zone

variable {zone : Zone} {time : LocalTime} {instant : Instant}

theorem localTime_eq_iff (hvalid : time.IsValid) :
    zone.localTime instant = time ↔
      zone.Shows time.seconds instant.seconds ∧ instant.nanos = time.clock.nanos :=
  Instant.atOffset_eq_iff hvalid

/-- What is found is an instant that shows the time, and no other that does is before it. -/
theorem IsSound.of_instant?_eq_some (hsound : zone.IsSound) (hvalid : time.IsValid)
    (hinstant : zone.instant? time = some instant) :
    instant.IsRepresentable ∧ zone.localTime instant = time ∧
      ∀ other : Instant, zone.localTime other = time → instant.seconds ≤ other.seconds := by
  obtain ⟨second, hsecond, hinstant⟩ := Option.bind_eq_some_iff.mp hinstant
  obtain ⟨hrange, hinstant⟩ := Option.ite_none_right_eq_some.mp hinstant
  obtain rfl := Option.some.inj hinstant
  refine ⟨hrange, (localTime_eq_iff hvalid).mpr ⟨hsound.earliest?_shows hsecond, rfl⟩,
    fun other hother => ?_⟩
  obtain ⟨earliest, hearliest, hle⟩ := exists_earliest?_le ((localTime_eq_iff hvalid).mp hother).1
  rw [hsecond] at hearliest
  exact Option.some.inj hearliest ▸ hle

/-- If an instant shows the time, one is found. -/
theorem IsSound.exists_instant? (hsound : zone.IsSound) (hvalid : time.IsValid)
    (hrange : instant.IsRepresentable) (hshows : zone.localTime instant = time) :
    ∃ found, zone.instant? time = some found := by
  obtain ⟨hsecond, -⟩ := (localTime_eq_iff hvalid).mp hshows
  obtain ⟨earliest, hearliest, hle⟩ := exists_earliest?_le hsecond
  have hfirst : Instant.firstSecond ≤ earliest := by
    by_contra hearly
    have hsame := hsound.eq_of_early (hsound.earliest?_shows hearliest) hsecond
      (Int.not_le.mp hearly)
    exact hearly (hsame ▸ hrange.1)
  have hlast : earliest ≤ Instant.lastSecond := hle.trans hrange.2
  refine ⟨⟨earliest, time.clock.nanos⟩, ?_⟩
  rw [instant?, hearliest, Option.bind_some, Instant.of?, if_pos ⟨hfirst, hlast⟩]

/-- A time is read as the earliest instant that shows it. -/
theorem IsSound.instant?_eq_some_iff (hsound : zone.IsSound) (hvalid : time.IsValid) :
    zone.instant? time = some instant ↔
      instant.IsRepresentable ∧ zone.localTime instant = time ∧
        ∀ other : Instant, other.IsRepresentable → zone.localTime other = time →
          instant.seconds ≤ other.seconds := by
  constructor
  · intro hinstant
    obtain ⟨hrange, hshows, hleast⟩ := hsound.of_instant?_eq_some hvalid hinstant
    exact ⟨hrange, hshows, fun other _ => hleast other⟩
  · rintro ⟨hrange, hshows, hleast⟩
    obtain ⟨found, hfound⟩ := hsound.exists_instant? hvalid hrange hshows
    obtain ⟨hfoundRange, hfoundShows, hfoundLeast⟩ := hsound.of_instant?_eq_some hvalid hfound
    have hseconds : found.seconds = instant.seconds :=
      Int.le_antisymm (hfoundLeast instant hshows) (hleast found hfoundRange hfoundShows)
    have hnanos : found.nanos = instant.nanos :=
      ((localTime_eq_iff hvalid).mp hfoundShows).2.trans ((localTime_eq_iff hvalid).mp hshows).2.symm
    rw [hfound]
    cases found
    cases instant
    simp_all

/-- A time is not read if and only if the clock of the zone skips it. -/
theorem IsSound.instant?_eq_none_iff (hsound : zone.IsSound) (hvalid : time.IsValid) :
    zone.instant? time = none ↔
      ∀ instant : Instant, instant.IsRepresentable → zone.localTime instant ≠ time := by
  constructor
  · intro hnone instant hrange hshows
    obtain ⟨found, hfound⟩ := hsound.exists_instant? hvalid hrange hshows
    rw [hnone] at hfound
    cases hfound
  · intro hskipped
    by_contra hsome
    obtain ⟨found, hfound⟩ := Option.ne_none_iff_exists'.mp hsome
    obtain ⟨hrange, hshows, -⟩ := hsound.of_instant?_eq_some hvalid hfound
    exact hskipped found hrange hshows

end Zone

/-! ### Texts -/

/-- A text without an offset is read on the clock of a zone: as the earliest instant that shows its
time there, and as nothing if no instant does. A text in the form of RFC 3339 is read as the one
instant that shows its time at its offset, whatever the zone. -/
theorem readInstant_on_clock :
    (∀ zone ∈ Zone.all, zone.IsSound) ∧
    ∀ text : String,
      (∀ time, Rfc3339.read (Text.trim text.toList) = none →
        naiveTime? (Text.trim text.toList) = some time →
        ∀ zone : Zone, zone.IsSound →
          (∀ instant, readInstant zone text = some instant ↔
            instant.IsRepresentable ∧ zone.localTime instant = time ∧
              ∀ other : Instant, other.IsRepresentable → zone.localTime other = time →
                instant.seconds ≤ other.seconds) ∧
          (readInstant zone text = none ↔
            ∀ instant : Instant, instant.IsRepresentable → zone.localTime instant ≠ time)) ∧
      ∀ time offset, Rfc3339.read (Text.trim text.toList) = some (time, offset) →
        ∃ instant : Instant, (∀ other : Instant, other.atOffset offset = time ↔ other = instant) ∧
          ∀ zone : Zone, readInstant zone text = some instant := by
  refine ⟨fun zone => Zone.isSound_of_mem_all, fun text => ⟨?_, ?_⟩⟩
  · intro time hrfc htime zone hsound
    have hread : readInstant zone text = zone.instant? time := by
      simp [readInstant, Rfc3339.instant?, hrfc, htime]
    rw [hread]
    have hvalid := naiveTime?_isValid htime
    exact ⟨fun instant => hsound.instant?_eq_some_iff hvalid, hsound.instant?_eq_none_iff hvalid⟩
  · intro time offset hrfc
    have hvalid := Rfc3339.read_isValid hrfc
    refine ⟨⟨time.seconds - offset, time.clock.nanos⟩, fun other => ?_, fun zone => ?_⟩
    · rw [Instant.atOffset_eq_iff hvalid]
      constructor
      · rintro ⟨hseconds, hnanos⟩
        cases other
        simp only at hseconds hnanos
        rw [Instant.mk.injEq]
        exact ⟨by omega, hnanos⟩
      · rintro rfl
        exact ⟨by simp, rfl⟩
    · simp [readInstant, Rfc3339.instant?, hrfc]

/-- In Berlin half past two is shown twice in an autumn night, the second time an hour later, and
skipped in a spring night; with an offset it is the same time everywhere. -/
theorem readInstant_on_clock_berlin :
    (Zone.berlin.localTime ⟨1729992600, 0⟩ = ⟨⟨2024, 10, 27⟩, ⟨9000, 0⟩⟩ ∧
      ∀ other : Instant, other.IsRepresentable →
        Zone.berlin.localTime other = ⟨⟨2024, 10, 27⟩, ⟨9000, 0⟩⟩ →
          1729992600 - 3600 ≤ other.seconds) ∧
    (∀ instant : Instant, instant.IsRepresentable →
      Zone.berlin.localTime instant ≠ ⟨⟨2024, 3, 31⟩, ⟨9000, 0⟩⟩) ∧
    ∃ instant : Instant, instant.atOffset 7200 = ⟨⟨2024, 3, 31⟩, ⟨9000, 0⟩⟩ ∧
      ∀ zone : Zone, readInstant zone "2024-03-31t02:30:00+02:00" = some instant := by
  obtain ⟨hsound, htexts⟩ := readInstant_on_clock
  have hberlin : Zone.berlin.IsSound := hsound _ (by simp [Zone.all])
  obtain ⟨hautumn, -⟩ := (htexts " 2024-10-27 02:30").1 ⟨⟨2024, 10, 27⟩, ⟨9000, 0⟩⟩ (by decide)
    (by decide) Zone.berlin hberlin
  obtain ⟨-, hspring⟩ := (htexts "2024-03-31 02:30").1 ⟨⟨2024, 3, 31⟩, ⟨9000, 0⟩⟩ (by decide)
    (by decide) Zone.berlin hberlin
  obtain ⟨instant, hshows, hread⟩ := (htexts "2024-03-31t02:30:00+02:00").2
    ⟨⟨2024, 3, 31⟩, ⟨9000, 0⟩⟩ 7200 (by decide)
  have hearlier : readInstant Zone.berlin " 2024-10-27 02:30" = some ⟨1729989000, 0⟩ := by
    decide +kernel
  have hskipped : readInstant Zone.berlin "2024-03-31 02:30" = none := by decide +kernel
  exact ⟨⟨by decide +kernel, ((hautumn _).mp hearlier).2.2⟩, hspring.mp hskipped, instant,
    (hshows instant).mpr rfl, hread⟩

end FieldSearch.Calendar
