import FieldSearch.Condition.Renderer
import FieldSearch.Definition.Sample
import FieldSearch.Proofs.Calendar.Shapes
import FieldSearch.Proofs.Search.Naming

/-! Patterns. A pattern is bound with anything around it unless it says itself where anything may
stand. If it does, a temporal field reads it as a date or time; but no date has a percent sign, so
the test is dropped every time, while the pattern without the sign is bound as a pattern. -/

namespace FieldSearch

/-- No temporal field reads a text with a percent sign. -/
theorem Field.readTemporal_of_percent (field : Field) (zone : Calendar.Zone) {text : String}
    (hmem : '%' ∈ text.toList) : field.readTemporal zone text = none := by
  obtain ⟨hinstant, hdate⟩ : Calendar.readInstant zone text = none ∧
      Calendar.readDate zone text = none := Calendar.reading_eq_none_of_percent hmem
  unfold readTemporal
  split <;> simp [hinstant, hdate]

/-- What is bound for a pattern, if anything is. -/
theorem Field.boundValue?_pattern (field : Field) (zone : Calendar.Zone) {op : Operator}
    (hop : op = .like ∨ op = .unlike) (value : String) :
    field.boundValue? zone op value =
      if value.toList.head? ≠ some '%' ∧ value.toList.getLast? ≠ some '%' then
        some (.string ("%" ++ value ++ "%"))
      else if field.type.isTemporal then none
      else some (.string value) := by
  rw [boundValue?_eq]
  by_cases hbare : value.toList.head? ≠ some '%' ∧ value.toList.getLast? ≠ some '%'
  · rw [if_pos ⟨hop, hbare⟩, if_pos hbare]
  · have hpercent : '%' ∈ value.toList := by
      by_cases hfirst : value.toList.head? = some '%'
      · exact List.mem_of_head? hfirst
      · exact List.mem_of_getLast? (by_contra fun hlast => hbare ⟨hfirst, hlast⟩)
    rw [if_neg fun hpattern => hbare hpattern.2, if_neg hbare,
      field.readTemporal_of_percent zone hpercent]

namespace Renderer

/-- A test binds the value for it or changes nothing. -/
theorem test_of_token (renderer : Renderer) (field : Field) {op : Operator} {token : String}
    (htoken : op.token? = some token) (value : String) :
    renderer.test field op value =
      match field.boundValue? renderer.registry.zone op value with
      | some bound =>
        (.ok (some (field.columnSql ++ " " ++ token ++ " ?")), renderer.addParam bound)
      | none => (.ok none, renderer) := by
  rw [test, takeFragment, Registry.test_of_token htoken]
  cases field.boundValue? renderer.registry.zone op value with
  | some bound => rfl
  | none =>
      show (Except.ok none, { renderer with params := renderer.params ++ [] }) = _
      rw [List.append_nil]

/-- A pattern is bound once, as it is if it begins or ends with a percent sign and between two of
them otherwise; but in a temporal field only a pattern of the second kind is. -/
theorem test_pattern (renderer : Renderer) (field : Field) {op : Operator}
    (hop : op = .like ∨ op = .unlike) (value : String) :
    ∃ token, op.token? = some token ∧
      renderer.test field op value =
        if value.toList.head? ≠ some '%' ∧ value.toList.getLast? ≠ some '%' then
          (.ok (some (field.columnSql ++ " " ++ token ++ " ?")),
            renderer.addParam (.string ("%" ++ value ++ "%")))
        else if field.type.isTemporal then (.ok none, renderer)
        else
          (.ok (some (field.columnSql ++ " " ++ token ++ " ?")),
            renderer.addParam (.string value)) := by
  obtain ⟨token, htoken⟩ : ∃ token, op.token? = some token := by
    rcases hop with rfl | rfl
    · exact ⟨_, rfl⟩
    · exact ⟨_, rfl⟩
  refine ⟨token, htoken, ?_⟩
  rw [renderer.test_of_token field htoken, field.boundValue?_pattern _ hop]
  split_ifs <;> rfl

/-- Names that do not begin with a letter are looked for; a year and what follows it is not. -/
theorem test_pattern_people :
    let name : Field := { name := "name", type := .string, table := some "people" }
    let born : Field := { name := "born_on", type := .date, table := some "people" }
    (fresh Sample.people.registry).test name .unlike "A%" =
        (.ok (some "people.name NOT LIKE ?"),
          (fresh Sample.people.registry).addParam (.string "A%")) ∧
      (fresh Sample.people.registry).test born .like "2000" =
        (.ok (some "people.born_on LIKE ?"),
          (fresh Sample.people.registry).addParam (.string "%2000%")) ∧
      (fresh Sample.people.registry).test born .like "2000%" =
        (.ok none, fresh Sample.people.registry) := by
  intro name born
  obtain ⟨token, htoken, hname⟩ :=
    test_pattern (fresh Sample.people.registry) name (.inr rfl) "A%"
  obtain rfl : "NOT LIKE" = token := Option.some.inj htoken
  obtain ⟨token, htoken, hbare⟩ :=
    test_pattern (fresh Sample.people.registry) born (.inl rfl) "2000"
  obtain rfl : "LIKE" = token := Option.some.inj htoken
  obtain ⟨token, htoken, hborn⟩ :=
    test_pattern (fresh Sample.people.registry) born (.inl rfl) "2000%"
  exact ⟨hname, hbare, hborn⟩

/-- Events of a year are looked for by the year, but those at times that begin with it are not. -/
theorem test_loses_wildcard : ∃ (definition : Definition) (field : Field),
    (⟨"events", .utc, [{ name := "at", type := .timestamp }]⟩ : Builder).build = .ok definition ∧
    definition.field? "at" = some field ∧
    (fresh definition.registry).test field .like "2024" =
      (.ok (some "events.at LIKE ?"), (fresh definition.registry).addParam (.string "%2024%")) ∧
    (fresh definition.registry).test field .like "2024%" = (.ok none, fresh definition.registry) ∧
    Search.ofQuery definition.registry (some "at ~ \"2024%\"") = .ok .matchAll := by
  let field : Field := { name := "at", type := .timestamp, table := some "events" }
  let events : Definition := ⟨"events", .utc, [field], ⟨[("at", 0)]⟩⟩
  have hbound : field.boundValue? .utc .like "2024%" = none :=
    field.boundValue?_pattern .utc (.inl rfl) "2024%"
  refine ⟨events, field, rfl, rfl, ?_, ?_, ?_⟩
  · rw [test_of_token _ field rfl, field.boundValue?_pattern _ (.inl rfl)]
    rfl
  · rw [test_of_token _ field rfl]
    rw [show (fresh events.registry).registry.zone = .utc from rfl, hbound]
  · have hblank : ¬Text.isBlank "at ~ \"2024%\"" := by decide
    have hparse : Query.parse "at ~ \"2024%\"" = .ok (.comparison "at" .like "2024%") := by
      decide +kernel
    rw [Search.ofQuery_of_not_blank hblank hparse, Search.ofNode_comparison rfl rfl, hbound]
    rfl

end Renderer

end FieldSearch
