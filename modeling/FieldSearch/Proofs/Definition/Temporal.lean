import FieldSearch.Proofs.Calendar.Zones
import FieldSearch.Proofs.Compile.Defaults

/-! Temporal default fields. A temporal field is chosen by default where the value is an instant. That
is what fields with times convert it to, but fields with dates convert it to a date, and there are
dates whose midnight the clock of a zone skips: those are no instants, and the date field that could
have read them is left out. -/

namespace FieldSearch

namespace Calendar

/-- The text shows, without an offset, a time that the clock of the zone skips. -/
def ShowsSkipped (zone : Zone) (text : String) : Prop :=
  Rfc3339.read (Text.trim text.toList) = none ∧
    ∃ time, naiveTime? (Text.trim text.toList) = some time ∧
      ∀ instant : Instant, instant.IsRepresentable → zone.localTime instant ≠ time

variable {zone : Zone} {text : String}

/-- What has a date is an instant unless its time is skipped. -/
theorem Zone.IsSound.readInstant_isSome_iff (hsound : zone.IsSound) :
    (readInstant zone text).isSome ↔
      (readDate zone text).isSome ∧ ¬ShowsSkipped zone text := by
  rw [readDate_isSome_iff]
  cases hrfc : Rfc3339.read (Text.trim text.toList) with
  | some read => simp [readInstant, Rfc3339.instant?, ShowsSkipped, hrfc]
  | none =>
      cases hnaive : naiveTime? (Text.trim text.toList) with
      | none => simp [readInstant, Rfc3339.instant?, hrfc, hnaive]
      | some time =>
          have hread : readInstant zone text = zone.instant? time := by
            simp [readInstant, Rfc3339.instant?, hrfc, hnaive]
          have hskipped : ShowsSkipped zone text ↔ zone.instant? time = none := by
            rw [hsound.instant?_eq_none_iff (naiveTime?_isValid hnaive)]
            simp [ShowsSkipped, hrfc, hnaive]
          rw [hread, hskipped, Option.isSome_iff_ne_none]
          simp

end Calendar

open Calendar (ShowsSkipped)

namespace Definition

variable {definition : Definition} {field : Field} {value : String}

/-- A temporal field is a default field exactly for instants. -/
theorem mem_defaultFields_iff_readInstant (hfield : field ∈ definition.fields)
    (htemporal : field.type.isTemporal) (hopen : field.onlyExplicit = false)
    (given : Option Operator) :
    field ∈ definition.defaultFields value given ↔
      (Calendar.readInstant definition.zone value).isSome := by
  simp [mem_defaultFields_iff, hfield, hopen, htemporal, FieldType.of_isTemporal htemporal]

/-- Whatever the comparison, a temporal field is a default field for the values that it can convert,
except that a field with dates is missing for a text whose local time, or whose midnight, is skipped
in the zone. -/
theorem mem_defaultFields_temporal_iff (hzone : definition.zone.IsSound)
    (hfield : field ∈ definition.fields) (htemporal : field.type.isTemporal)
    (hopen : field.onlyExplicit = false) (given : Option Operator) :
    field ∈ definition.defaultFields value given ↔
      (field.readTemporal definition.zone value).isSome ∧
        ¬(field.type = .date ∧ ShowsSkipped definition.zone value) := by
  rw [mem_defaultFields_iff_readInstant hfield htemporal hopen]
  by_cases hdate : field.type = .date
  · have hread : (field.readTemporal definition.zone value).isSome =
        (Calendar.readDate definition.zone value).isSome := by
      simp [Field.readTemporal, hdate]
    rw [hread, hzone.readInstant_isSome_iff]
    simp [hdate]
  · have hread : (field.readTemporal definition.zone value).isSome =
        (Calendar.readInstant definition.zone value).isSome := by
      cases htype : field.type <;> simp_all [Field.readTemporal, FieldType.isTemporal]
    rw [hread]
    simp [hdate]

/-- In São Paulo a day began at one o'clock, and the day after it at midnight. -/
theorem mem_defaultFields_temporal_iff_saoPaulo :
    ShowsSkipped .saoPaulo "2018-11-04" ∧ ¬ShowsSkipped .saoPaulo "2018-11-05" := by
  obtain ⟨born, hborn⟩ : ∃ born : Field, born = { name := "born_on", type := .date } := ⟨_, rfl⟩
  obtain ⟨people, hpeople⟩ : ∃ people : Definition,
      people = ⟨"people", .saoPaulo, [born], ⟨[("born_on", 0)]⟩⟩ := ⟨_, rfl⟩
  have hzone : people.zone.IsSound :=
    Calendar.Zone.isSound_of_mem_all (by simp [hpeople, Calendar.Zone.all])
  have hfield : born ∈ people.fields := by simp [hpeople]
  have htemporal : born.type.isTemporal := by rw [hborn]; rfl
  have hopen : born.onlyExplicit = false := by rw [hborn]
  have hchosen : ∀ value, born ∈ people.defaultFields value none ↔
      (born.readTemporal people.zone value).isSome ∧
        ¬(born.type = .date ∧ ShowsSkipped people.zone value) := fun value =>
    mem_defaultFields_temporal_iff hzone hfield htemporal hopen none
  subst hpeople hborn
  constructor
  · by_contra hnone
    have hmissed := (hchosen "2018-11-04").mpr ⟨by decide +kernel, fun hdate => hnone hdate.2⟩
    revert hmissed
    decide +kernel
  · intro hskips
    exact ((hchosen "2018-11-05").mp (by decide +kernel)).2 ⟨rfl, hskips⟩

/-- People are not looked for by a day that began at one o'clock, though it is a date. -/
theorem defaultFields_miss_born_on :
    ∃ definition : Definition,
      (⟨"people", .saoPaulo, [{ name := "born_on", type := .date }]⟩ : Builder).build =
        .ok definition ∧
      ∃ field ∈ definition.fields, field.type.isTemporal ∧ field.onlyExplicit = false ∧
        (field.readTemporal definition.zone "2018-11-04").isSome ∧
        field ∉ definition.defaultFields "2018-11-04" none := by
  refine ⟨_, rfl, { name := "born_on", type := .date, table := some "people" }, ?_⟩
  decide +kernel

end Definition

end FieldSearch
