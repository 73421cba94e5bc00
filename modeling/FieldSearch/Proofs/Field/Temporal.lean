import FieldSearch.Field.Basic
import FieldSearch.Proofs.Calendar.Rereading

/-! Values of temporal fields. Fields of different types agree on the day that a text is about, for
an instant that is found on the clock of a zone is shown there again as it was read. And values do
not change when they are written and read again, whoever reads them and wherever. -/

namespace FieldSearch

open Calendar

/-- The date of a text is the one that a clock in the zone shows at the instant of the text. -/
theorem Calendar.readDate_of_readInstant {zone : Zone} (hsound : zone.IsSound) {text : String}
    {instant : Instant} (hinstant : readInstant zone text = some instant) :
    readDate zone text = some (zone.localTime instant).date := by
  rcases Option.or_eq_some_iff.mp hinstant with hrfc | ⟨-, hnaive⟩
  · exact readDate_of_instant? hrfc
  · obtain ⟨time, htime, hfound⟩ := Option.bind_eq_some_iff.mp hnaive
    obtain ⟨-, hshows, -⟩ := hsound.of_instant?_eq_some (naiveTime?_isValid htime) hfound
    rw [readDate_of_naiveTime? htime, hshows]

/-- Every text for an instant is one for a date, that of the instant in the zone. So a field of
instants and a field of dates are on the same day for the same text. -/
theorem Field.readTemporal_same_day :
    (∀ zone ∈ Zone.all, zone.IsSound) ∧
    ∀ zone : Zone, zone.IsSound → ∀ text : String,
      (∀ instant, readInstant zone text = some instant →
        readDate zone text = some (zone.localTime instant).date) ∧
      ∀ day moment : Field, day.type = .date →
        moment.type = .datetime ∨ moment.type = .timestamp →
        ∀ value, moment.readTemporal zone text = some value →
          ∃ instant, value = .timestamp instant ∧
            day.readTemporal zone text = some (.date (zone.localTime instant).date) := by
  refine ⟨fun zone => Zone.isSound_of_mem_all, fun zone hsound text => ?_⟩
  refine ⟨fun instant => readDate_of_readInstant hsound, ?_⟩
  intro day moment hdate hmoment value hvalue
  have hread : moment.readTemporal zone text = (readInstant zone text).map .timestamp := by
    rcases hmoment with hmoment | hmoment <;> simp only [readTemporal, hmoment]
  rw [hread] at hvalue
  obtain ⟨instant, hinstant, rfl⟩ := Option.map_eq_some_iff.mp hvalue
  refine ⟨instant, rfl, ?_⟩
  simp only [readTemporal, hdate, readDate_of_readInstant hsound hinstant, Option.map_some]

/-- On Samoa the 30th of December 2011 was left out, so its instants are of the day behind it. -/
theorem Field.readTemporal_same_day_apia :
    let day : Field := { name := "on", type := .date }
    let moment : Field := { name := "at", type := .datetime }
    readDate .apia "2011-12-30T10:00:00Z" = some ⟨2011, 12, 31⟩ ∧
    ∃ instant, moment.readTemporal .apia "2011-12-31" = some (.timestamp instant) ∧
      day.readTemporal .apia "2011-12-31" =
        some (.date (Zone.localTime .apia instant).date) := by
  intro day moment
  obtain ⟨hsound, hagree⟩ := Field.readTemporal_same_day
  have hapia : Zone.IsSound .apia := hsound _ (by simp [Zone.all])
  have hread : readInstant .apia "2011-12-30T10:00:00Z" = some ⟨1325239200, 0⟩ := by decide +kernel
  have hshown : (Zone.localTime .apia ⟨1325239200, 0⟩).date = ⟨2011, 12, 31⟩ := by decide +kernel
  have hmidnight : moment.readTemporal .apia "2011-12-31" =
      some (.timestamp ⟨1325239200, 0⟩) := by decide +kernel
  obtain ⟨hday, -⟩ := hagree .apia hapia "2011-12-30T10:00:00Z"
  obtain ⟨-, hfields⟩ := hagree .apia hapia "2011-12-31"
  obtain ⟨instant, hinstant, hdate⟩ := hfields day moment rfl (.inl rfl) _ hmidnight
  exact ⟨hshown ▸ hday _ hread, instant, hinstant ▸ hmidnight, hdate⟩

/-- Dates are read as they were written. So are instants, of years of four digits and but for leap
seconds; their literals in SQL are read in UTC to the second. -/
theorem BindValue.reread :
    (∀ zone ∈ Zone.all, zone.IsSound) ∧
    ∀ zone zone' : Zone, zone.IsSound → ∀ text : String,
      (∀ date, readDate zone text = some date →
        readDate zone' (BindValue.date date).text = some date) ∧
      ∀ instant, readInstant zone text = some instant →
        0 ≤ instant.utc.date.year → instant.utc.date.year ≤ 9999 →
        instant.nanos < nanosPerSecond →
          readInstant zone' (BindValue.timestamp instant).text = some instant ∧
          ∃ shown : String, (BindValue.timestamp instant).literal = inQuotes shown.toList ∧
            readInstant .utc shown = some ⟨instant.seconds, 0⟩ := by
  refine ⟨fun zone => Zone.isSound_of_mem_all, fun zone zone' hsound text => ⟨?_, ?_⟩⟩
  · intro date hdate
    exact readDate_text (readDate_isValid hsound hdate) zone'
  · intro instant _ hfirst hlast hnanos
    exact ⟨readInstant_text hfirst hlast hnanos zone', instant.sqlText, rfl,
      readInstant_sqlText hfirst hlast hnanos⟩

/-- A year before the first one has a sign, and a second that is not whole has a fraction. -/
theorem BindValue.reread_ides :
    readDate .tokyo "-0044-03-15" = some ⟨-44, 3, 15⟩ ∧
    readInstant .tokyo "2024-02-29T22:59:59.500Z" = some ⟨1709247599, 500000000⟩ ∧
    readInstant .utc "2024-02-29 22:59:59" = some ⟨1709247599, 0⟩ := by
  obtain ⟨hsound, hreread⟩ := BindValue.reread
  have hberlin : Zone.IsSound .berlin := hsound _ (by simp [Zone.all])
  have hdate : readDate .berlin " -44-3-15" = some ⟨-44, 3, 15⟩ := by decide +kernel
  have hinstant : readInstant .berlin "2024-02-29 23:59:59.5+01:00" =
      some ⟨1709247599, 500000000⟩ := by decide +kernel
  obtain ⟨hdates, -⟩ := hreread .berlin .tokyo hberlin " -44-3-15"
  obtain ⟨-, hinstants⟩ := hreread .berlin .tokyo hberlin "2024-02-29 23:59:59.5+01:00"
  obtain ⟨hwritten, shown, hliteral, hsql⟩ := hinstants _ hinstant (by decide +kernel)
    (by decide +kernel) (by decide)
  have hdateText : (BindValue.date ⟨-44, 3, 15⟩).text = "-0044-03-15" := by decide +kernel
  have hinstantText : (BindValue.timestamp ⟨1709247599, 500000000⟩).text =
      "2024-02-29T22:59:59.500Z" := by decide +kernel
  have hshown : shown = "2024-02-29 22:59:59" := by
    have hquoted : (BindValue.timestamp ⟨1709247599, 500000000⟩).literal =
        inQuotes "2024-02-29 22:59:59".toList := by decide +kernel
    have hlist := congrArg String.toList (hquoted.symm.trans hliteral)
    simp only [inQuotes, String.toList_ofList, List.cons_append, List.cons.injEq, true_and,
      List.append_cancel_right_eq, String.toList_inj] at hlist
    exact hlist.symm
  exact ⟨hdateText ▸ hdates _ hdate, hinstantText ▸ hwritten, hshown ▸ hsql⟩

end FieldSearch
