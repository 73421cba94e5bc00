import FieldSearch.Proofs.Compile.Rules

/-! Default fields can read the value that is looked for in them. A temporal field is a default
field only for an instant, and what is an instant in a zone is a date there too; every other field
takes any text. A term without a field name is therefore never dropped. -/

namespace FieldSearch

namespace Calendar

variable {zone : Zone} {text : String}

/-- A date is read from a text with an offset and from one without. -/
theorem readDate_isSome_iff :
    (readDate zone text).isSome ↔
      (Rfc3339.read (Text.trim text.toList)).isSome ∨
        (naiveTime? (Text.trim text.toList)).isSome := by
  simp only [readDate, naiveTime?, Rfc3339.instant?, Option.isSome_or, Option.isSome_map,
    Bool.or_eq_true]
  rw [or_rotate, or_left_comm]

/-- An instant has a date. -/
theorem readDate_isSome_of_readInstant (hinstant : (readInstant zone text).isSome) :
    (readDate zone text).isSome := by
  simp only [readInstant, Rfc3339.instant?, Option.isSome_or, Option.isSome_map,
    Bool.or_eq_true] at hinstant
  exact readDate_isSome_iff.mpr (hinstant.imp_right Option.isSome_of_isSome_bind)

end Calendar

namespace FieldType

/-- Times are neither texts nor numbers. -/
theorem of_isTemporal {type : FieldType} (htemporal : type.isTemporal) :
    type.isTextual = false ∧ type.isNumerical = false := by
  cases type <;> simp_all [isTextual, isNumerical, isTemporal]

/-- Numbers are neither texts nor times. -/
theorem of_isNumerical {type : FieldType} (hnumerical : type.isNumerical) :
    type.isTextual = false ∧ type.isTemporal = false := by
  cases type <;> simp_all [isTextual, isNumerical, isTemporal]

/-- A type has texts, numbers or times, or is that of yes and no. -/
theorem numerical_or_temporal_iff {type : FieldType} :
    type.isNumerical ∨ type.isTemporal ↔ ¬type.isTextual ∧ type ≠ .boolean := by
  cases type <;> decide

end FieldType

namespace Field

theorem readTemporal_isSome {field : Field} {zone : Calendar.Zone} {value : String}
    (htemporal : field.type.isTemporal) (hinstant : (Calendar.readInstant zone value).isSome) :
    (field.readTemporal zone value).isSome := by
  unfold readTemporal
  split
  · simpa using Calendar.readDate_isSome_of_readInstant hinstant
  · simpa using hinstant
  · simpa using hinstant
  · simp_all [FieldType.isTemporal]

/-- A test is dropped only if the field is temporal and cannot read the value. -/
theorem boundValue?_eq_none_iff {field : Field} {zone : Calendar.Zone} {op : Operator}
    {value : String} :
    field.boundValue? zone op value = none ↔
      field.type.isTemporal ∧ ¬(op.isPattern ∧ ¬hasWildcard value) ∧
        field.readTemporal zone value = none := by
  unfold boundValue?
  by_cases hpattern : (op.isPattern && !hasWildcard value) = true
  · rw [if_pos hpattern]
    simp_all
  · rw [if_neg hpattern]
    by_cases htemporal : field.type.isTemporal = true
    · rw [if_pos htemporal]
      simp_all
    · rw [if_neg htemporal]
      simp_all

end Field

namespace Definition

/-- The default fields are those of the types for which the value is sought, but for explicit ones.
-/
theorem mem_defaultFields_iff {definition : Definition} {field : Field} {value : String}
    {given : Option Operator} :
    field ∈ definition.defaultFields value given ↔
      field ∈ definition.fields ∧ field.onlyExplicit = false ∧
        (looksForText given ∧ field.type.isTextual ∨
          isNumber value ∧ field.type.isNumerical ∨
          (Calendar.readInstant definition.zone value).isSome ∧ field.type.isTemporal) := by
  simp [defaultFields, or_assoc]

theorem mem_of_mem_defaultFields {definition : Definition} {field : Field} {value : String}
    {given : Option Operator} (hmem : field ∈ definition.defaultFields value given) :
    field ∈ definition.fields :=
  (mem_defaultFields_iff.mp hmem).1

theorem mem_of_field? {definition : Definition} {field : Field} {name : String}
    (hfield : definition.field? name = some field) : field ∈ definition.fields := by
  obtain ⟨position, -, hfield⟩ := Option.bind_eq_some_iff.mp hfield
  exact List.mem_of_getElem? hfield

/-- A temporal field is a default field only for values that it can read. -/
theorem readTemporal_isSome {definition : Definition} {field : Field} {value : String}
    {given : Option Operator} (hmem : field ∈ definition.defaultFields value given)
    (htemporal : field.type.isTemporal) : (field.readTemporal definition.zone value).isSome := by
  apply Field.readTemporal_isSome htemporal
  obtain ⟨-, -, hchosen⟩ := mem_defaultFields_iff.mp hmem
  simpa [FieldType.of_isTemporal htemporal, htemporal] using hchosen

/-- A default field for a value binds it, whatever the comparison. -/
theorem boundValue?_isSome {definition : Definition} {field : Field} {value : String}
    {given : Option Operator} (hmem : field ∈ definition.defaultFields value given)
    (op : Operator) : (field.boundValue? definition.zone op value).isSome := by
  rw [Option.isSome_iff_ne_none, ne_eq, Field.boundValue?_eq_none_iff]
  rintro ⟨htemporal, -, hread⟩
  have hsome := readTemporal_isSome hmem htemporal
  rw [hread] at hsome
  cases hsome

end Definition

end FieldSearch
