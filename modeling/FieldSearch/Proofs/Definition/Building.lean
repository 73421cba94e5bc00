import FieldSearch.Definition.Sample
import FieldSearch.Proofs.Definition.Index

/-! When a definition can be built. Fields need names that are not blank, must not be told to be
compared by a negation, and may not share a name or an alias. They are checked in their order, and
what is wrong with the first of them that does not fit is reported, whatever comes behind it. With
every field that fits the index goes on to belong to the fields, so in a definition that was built
every field is found by the names that are its own. -/

namespace FieldSearch

/-! ### Fields -/

namespace Field

/-- The field has a name that is not blank, and is not told to be compared by a negation. -/
def IsSound (field : Field) : Prop :=
  (∃ c ∈ field.name.toList, ¬Text.isWhite c) ∧ field.defaultOperator? ≠ some .not

/-- What is wrong with a field where some names are known: the first thing that is, of the name, the
operator, and the names in their order. -/
inductive HasFault (known : List String) (field : Field) : DefinitionError → Prop
  | blank : (∀ c ∈ field.name.toList, Text.isWhite c) → HasFault known field .emptyFieldName
  | negated : (∃ c ∈ field.name.toList, ¬Text.isWhite c) → field.defaultOperator? = some .not →
      HasFault known field (.invalidDefaultOperator field.name .not)
  | repeated {before name after} : field.IsSound → field.names = before ++ name :: after →
      AreNew known before → name ∈ before ++ known → HasFault known field (.duplicateField name)

/-- A field has nothing wrong with it, or one of the faults. -/
theorem isSound_or_hasFault (known : List String) (field : Field) :
    (field.IsSound ∧ AreNew known field.names) ∨ ∃ error, field.HasFault known error := by
  by_cases hname : ∃ c ∈ field.name.toList, ¬Text.isWhite c
  · by_cases hop : field.defaultOperator? = some .not
    · exact .inr ⟨_, .negated hname hop⟩
    · have hsound : field.IsSound := ⟨hname, hop⟩
      rcases areNew_or_known known field.names with hnew | ⟨before, _, _, hnames, hbefore, hknown⟩
      · exact .inl ⟨hsound, hnew⟩
      · exact .inr ⟨_, .repeated hsound hnames hbefore (List.mem_append.mpr
          (List.mem_append.mp hknown).symm)⟩
  · exact .inr ⟨_, .blank (by simpa using hname)⟩

@[simp]
theorem names_qualified (table : String) (field : Field) :
    (field.qualified table).names = field.names := by
  unfold qualified
  split <;> rfl

/-- A field is compared in the same way in whatever table it stands. -/
@[simp]
theorem defaultOperator_qualified (table : String) (field : Field) :
    (field.qualified table).defaultOperator = field.defaultOperator := by
  unfold qualified
  split <;> rfl

theorem IsSound.defaultOperator_ne_not {field : Field} (hsound : field.IsSound) :
    field.defaultOperator ≠ .not := by
  unfold defaultOperator
  cases hop : field.defaultOperator? with
  | none => cases field.type.isTextual <;> simp
  | some op =>
      rintro rfl
      exact hsound.2 hop

/-- A field that is in no table of its own is put in the table, if that has a name. -/
theorem qualified_eq (table : String) (field : Field) :
    field.qualified table =
      { field with table := field.table.or (if table = "" then none else some table) } := by
  unfold qualified
  cases htable : field.table <;> by_cases hempty : table = "" <;> simp [hempty] <;>
    rw [← htable]

end Field

@[simp]
theorem flatMap_names_qualified (table : String) (fields : List Field) :
    (fields.map (Field.qualified table)).flatMap Field.names = fields.flatMap Field.names := by
  simp [List.flatMap_map]

/-- The fields have nothing wrong with them one after another, where some names are known. -/
def FitTogether (known : List String) (fields : List Field) : Prop :=
  (∀ field ∈ fields, field.IsSound) ∧ AreNew known (fields.flatMap Field.names)

theorem fitTogether_nil (known : List String) : FitTogether known [] :=
  ⟨by simp, areNew_nil known⟩

theorem fitTogether_cons {known : List String} {field : Field} {fields : List Field} :
    FitTogether known (field :: fields) ↔
      (field.IsSound ∧ AreNew known field.names) ∧ FitTogether (known ++ field.names) fields := by
  unfold FitTogether
  rw [List.flatMap_cons, areNew_append, List.forall_mem_cons]
  tauto

theorem fitTogether_iff {fields : List Field} :
    FitTogether [] fields ↔
      (∀ field ∈ fields, field.IsSound) ∧ (fields.flatMap Field.names).Nodup := by
  simp [FitTogether, AreNew]

/-- Fields fit together, or there is a first that has a fault. -/
theorem fitTogether_or_hasFault (known : List String) (fields : List Field) :
    FitTogether known fields ∨
      ∃ before field after error, fields = before ++ field :: after ∧ FitTogether known before ∧
        field.HasFault (known ++ before.flatMap Field.names) error := by
  induction fields generalizing known with
  | nil => exact .inl (fitTogether_nil known)
  | cons first fields ih =>
      rcases first.isSound_or_hasFault known with hfirst | ⟨error, hfault⟩
      · rcases ih (known ++ first.names) with
          hfit | ⟨before, field, after, error, rfl, hbefore, hfault⟩
        · exact .inl (fitTogether_cons.mpr ⟨hfirst, hfit⟩)
        · rw [List.append_assoc, ← List.flatMap_cons] at hfault
          exact .inr ⟨first :: before, field, after, error, rfl,
            fitTogether_cons.mpr ⟨hfirst, hbefore⟩, hfault⟩
      · refine .inr ⟨[], first, fields, error, rfl, fitTogether_nil known, ?_⟩
        simpa using hfault

/-! ### Building

One field either goes behind the others and makes its names known, or is the end of it. -/

namespace Catalog

variable {table : String} {catalog next : Catalog} {field : Field}
  {fields before after : List Field} {error : DefinitionError}

theorem locates_empty : ({} : Catalog).index.Locates ({} : Catalog).fields :=
  Index.locates_empty

/-- A field that fits is added, and the index goes on to belong to the fields. -/
theorem exists_add (hlocates : catalog.index.Locates catalog.fields) (hsound : field.IsSound)
    (hnew : AreNew (catalog.fields.flatMap Field.names) field.names) (table : String) :
    ∃ next, catalog.add table field = .ok next ∧
      next.fields = catalog.fields ++ [field.qualified table] ∧
      next.index.Locates next.fields := by
  have hname := Text.not_isBlank_iff.mpr hsound.1
  obtain ⟨index, hentered⟩ := Index.exists_insertAll hlocates.knows hnew catalog.fields.length
  rw [← field.names_qualified table] at hnew
  refine ⟨⟨_, index⟩, ?_, rfl, hlocates.concat hnew (by rwa [Field.names_qualified])⟩
  rw [add, if_neg hname, if_neg hsound.2, hentered]

theorem add_of_fault (hlocates : catalog.index.Locates catalog.fields)
    (hfault : field.HasFault (catalog.fields.flatMap Field.names) error) :
    catalog.add table field = .error error := by
  cases hfault with
  | blank hblank => rw [add, if_pos (Text.isBlank_iff.mpr hblank)]
  | negated hname hop => rw [add, if_neg (Text.not_isBlank_iff.mpr hname), if_pos hop]
  | @repeated before name after hsound hnames hbefore hmem =>
      have hname := Text.not_isBlank_iff.mpr hsound.1
      have hknown := List.mem_append.mpr (List.mem_append.mp hmem).symm
      have hrefused := Index.insertAll_of_known hlocates.knows hbefore hknown after
        catalog.fields.length
      rw [add, if_neg hname, if_neg hsound.2, hnames, hrefused]

/-- All fields are added if they fit together. -/
theorem exists_addAll (hlocates : catalog.index.Locates catalog.fields)
    (hfit : FitTogether (catalog.fields.flatMap Field.names) fields) (table : String) :
    ∃ final, catalog.addAll table fields = .ok final ∧
      final.fields = catalog.fields ++ fields.map (Field.qualified table) ∧
      final.index.Locates final.fields := by
  induction fields generalizing catalog with
  | nil => exact ⟨catalog, rfl, by simp, hlocates⟩
  | cons field fields ih =>
      obtain ⟨⟨hsound, hnew⟩, hfit⟩ := fitTogether_cons.mp hfit
      obtain ⟨next, hadd, hfields, hlocates⟩ := exists_add hlocates hsound hnew table
      obtain ⟨final, hmore, hfinal, hlocates⟩ := ih hlocates (by simpa [hfields] using hfit)
      rw [addAll, hadd]
      exact ⟨final, hmore, by simp [hfinal, hfields], hlocates⟩

theorem addAll_append (hbefore : catalog.addAll table before = .ok next) :
    catalog.addAll table (before ++ after) = next.addAll table after := by
  induction before generalizing catalog with
  | nil =>
      obtain rfl : catalog = next := Except.ok.inj hbefore
      rfl
  | cons field before ih =>
      unfold addAll at hbefore
      rw [List.cons_append, addAll]
      cases hadd : catalog.add table field with
      | error error => simp [hadd] at hbefore
      | ok added =>
          rw [hadd] at hbefore
          exact ih hbefore

/-- The first field with a fault ends it, behind fields that fit together. -/
theorem addAll_of_fault (hlocates : catalog.index.Locates catalog.fields)
    (hbefore : FitTogether (catalog.fields.flatMap Field.names) before)
    (hfault : field.HasFault ((catalog.fields ++ before).flatMap Field.names) error) :
    catalog.addAll table (before ++ field :: after) = .error error := by
  obtain ⟨next, hadded, hfields, hlocates⟩ := exists_addAll hlocates hbefore table
  rw [addAll_append hadded, addAll, add_of_fault hlocates (by simpa [hfields] using hfault)]

end Catalog

namespace Builder

variable {builder : Builder} {definition : Definition} {error : DefinitionError}

/-- What a builder makes of its fields: each is put in the table, and the index belongs to them. -/
structure Makes (builder : Builder) (definition : Definition) : Prop where
  table : definition.table = builder.table
  zone : definition.zone = builder.zone
  fields : definition.fields = builder.fields.map (Field.qualified builder.table)
  locates : definition.index.Locates definition.fields

theorem exists_build (hfit : FitTogether [] builder.fields) :
    ∃ definition, builder.build = .ok definition ∧ builder.Makes definition := by
  obtain ⟨catalog, hadded, hfields, hlocates⟩ :=
    Catalog.exists_addAll Catalog.locates_empty hfit builder.table
  unfold build
  rw [hadded]
  exact ⟨_, rfl, rfl, rfl, hfields, hlocates⟩

theorem build_of_fault {before after : List Field} {field : Field}
    (hfields : builder.fields = before ++ field :: after) (hbefore : FitTogether [] before)
    (hfault : field.HasFault (before.flatMap Field.names) error) :
    builder.build = .error error := by
  unfold build
  rw [hfields, Catalog.addAll_of_fault Catalog.locates_empty hbefore hfault]

theorem fitTogether_of_build (hbuild : builder.build = .ok definition) :
    FitTogether [] builder.fields := by
  rcases fitTogether_or_hasFault [] builder.fields with
    hfit | ⟨before, field, after, error, hfields, hbefore, hfault⟩
  · exact hfit
  · rw [build_of_fault hfields hbefore hfault] at hbuild
    cases hbuild

theorem makes_of_build (hbuild : builder.build = .ok definition) : builder.Makes definition := by
  obtain ⟨made, hmade, hmakes⟩ := exists_build (fitTogether_of_build hbuild)
  obtain rfl : made = definition := Except.ok.inj (hmade.symm.trans hbuild)
  exact hmakes

/-- A definition is built, or an error is reported. -/
theorem exists_build_eq_ok_iff :
    (∃ definition, builder.build = .ok definition) ↔ FitTogether [] builder.fields := by
  constructor
  · rintro ⟨definition, hbuild⟩
    exact fitTogether_of_build hbuild
  · intro hfit
    obtain ⟨definition, hbuild, -⟩ := exists_build hfit
    exact ⟨definition, hbuild⟩

/-- What is reported is the fault of the first field that has one, behind fields that fit together.
-/
theorem build_eq_error_iff :
    builder.build = .error error ↔
      ∃ before field after, builder.fields = before ++ field :: after ∧ FitTogether [] before ∧
        field.HasFault (before.flatMap Field.names) error := by
  constructor
  · intro hfails
    rcases fitTogether_or_hasFault [] builder.fields with
      hfit | ⟨before, field, after, error', hfields, hbefore, hfault⟩
    · obtain ⟨definition, hbuild, -⟩ := exists_build hfit
      rw [hbuild] at hfails
      cases hfails
    · rw [build_of_fault hfields hbefore hfault] at hfails
      obtain rfl := Except.error.inj hfails
      exact ⟨before, field, after, hfields, hbefore, hfault⟩
  · rintro ⟨before, field, after, hfields, hbefore, hfault⟩
    exact build_of_fault hfields hbefore hfault

end Builder

/-! ### Look-ups

The index of a definition that was built belongs to its fields. -/

namespace Definition

variable {definition : Definition} {name : String} {field : Field}

/-- A field is found by the names that are its own. -/
theorem field?_eq_some_iff (hlocates : definition.index.Locates definition.fields) :
    definition.field? name = some field ↔ field ∈ definition.fields ∧ name ∈ field.names := by
  unfold field?
  rw [Option.bind_eq_some_iff]
  constructor
  · rintro ⟨position, hposition, hfield⟩
    obtain ⟨found, hfound, hname⟩ := (hlocates name position).mp hposition
    obtain rfl : found = field := Option.some.inj (hfound.symm.trans hfield)
    exact ⟨List.mem_of_getElem? hfound, hname⟩
  · rintro ⟨hmem, hname⟩
    obtain ⟨position, hfield⟩ := List.mem_iff_getElem?.mp hmem
    exact ⟨position, (hlocates name position).mpr ⟨field, hfield, hname⟩, hfield⟩

theorem field?_eq_none_iff (hlocates : definition.index.Locates definition.fields) :
    definition.field? name = none ↔ ∀ field ∈ definition.fields, name ∉ field.names := by
  rw [Option.eq_none_iff_forall_ne_some]
  refine forall_congr' fun field => ?_
  rw [ne_eq, field?_eq_some_iff hlocates, not_and]

/-- The field that is found is the only one that has the name. -/
theorem field?_eq_some_iff_unique (hlocates : definition.index.Locates definition.fields) :
    definition.field? name = some field ↔
      ∃ before after, definition.fields = before ++ field :: after ∧ name ∈ field.names ∧
        ∀ other ∈ before ++ after, name ∉ other.names := by
  rw [field?_eq_some_iff hlocates]
  constructor
  · rintro ⟨hmem, hname⟩
    obtain ⟨before, after, hfields⟩ := List.append_of_mem hmem
    exact ⟨before, after, hfields, hname, hlocates.not_mem_names hfields hname⟩
  · rintro ⟨before, after, hfields, hname, -⟩
    exact ⟨by simp [hfields], hname⟩

end Definition

namespace Builder

variable {builder : Builder} {table : String} {zone : Calendar.Zone} {fields : List Field}
  {definition : Definition} {error : DefinitionError}

/-- No name stands twice in a definition that was built. -/
theorem build_distinct (hbuild : builder.build = .ok definition) :
    (definition.fields.flatMap Field.names).Nodup := by
  rw [(makes_of_build hbuild).fields, flatMap_names_qualified]
  exact (fitTogether_iff.mp (fitTogether_of_build hbuild)).2

/-- No field stands twice in a definition that was built. -/
theorem build_nodup (hbuild : builder.build = .ok definition) :
    definition.fields.Nodup := by
  obtain ⟨-, hdisjoint⟩ := List.nodup_flatMap.mp (build_distinct hbuild)
  refine hdisjoint.imp ?_
  rintro field other hnames rfl
  exact hnames List.mem_cons_self List.mem_cons_self

/-- A field of a definition that was built is compared by a comparison. -/
theorem build_compares (hbuild : builder.build = .ok definition) :
    ∀ field ∈ definition.fields, field.defaultOperator ≠ .not := by
  obtain ⟨hsound, -⟩ := fitTogether_of_build hbuild
  rw [(makes_of_build hbuild).fields]
  simpa using fun field hmem => (hsound field hmem).defaultOperator_ne_not

/-- More fields make no difference to what was wrong with those before them. -/
theorem build_append_of_error (hfails : (⟨table, zone, fields⟩ : Builder).build = .error error)
    (more : List Field) : (⟨table, zone, fields ++ more⟩ : Builder).build = .error error := by
  obtain ⟨before, field, after, hfields, hrest⟩ := build_eq_error_iff.mp hfails
  obtain rfl : fields = before ++ field :: after := hfields
  exact build_eq_error_iff.mpr ⟨before, field, after ++ more, by simp, hrest⟩

/-- More fields make no difference to what is found among those before them. -/
theorem field?_of_build_append {more : List Field} {extended : Definition}
    (hbuild : (⟨table, zone, fields⟩ : Builder).build = .ok definition)
    (hextended : (⟨table, zone, fields ++ more⟩ : Builder).build = .ok extended) {name : String}
    {field : Field} (hfield : definition.field? name = some field) :
    extended.field? name = some field := by
  have hmade := makes_of_build hbuild
  have hmadeExtended := makes_of_build hextended
  obtain ⟨hmem, hname⟩ := (Definition.field?_eq_some_iff hmade.locates).mp hfield
  refine (Definition.field?_eq_some_iff hmadeExtended.locates).mpr ⟨?_, hname⟩
  rw [hmade.fields] at hmem
  rw [hmadeExtended.fields, List.map_append]
  exact List.mem_append_left _ hmem

/-- A definition is built exactly if every field is sound and no name stands twice. It has the
fields in their order, each in the table of the definition unless it has one of its own; its index
leads from every name to the position of the field that has it, and by that the field is found. What
is reported otherwise is the fault of the first field that has one, whatever comes behind it. -/
theorem build_verdict (table : String) (zone : Calendar.Zone) (fields : List Field) :
    ((∃ definition, (⟨table, zone, fields⟩ : Builder).build = .ok definition) ↔
      (∀ field ∈ fields, field.IsSound) ∧ (fields.flatMap Field.names).Nodup) ∧
    (∀ definition, (⟨table, zone, fields⟩ : Builder).build = .ok definition →
      definition.table = table ∧ definition.zone = zone ∧
      definition.fields = fields.map (fun field =>
        { field with table := field.table.or (if table = "" then none else some table) }) ∧
      (∀ name position, definition.index.position? name = some position ↔
        ∃ field, definition.fields[position]? = some field ∧ name ∈ field.names) ∧
      ∀ name,
        (definition.field? name = none ↔ ∀ field ∈ definition.fields, name ∉ field.names) ∧
        ∀ field, definition.field? name = some field ↔
          ∃ before after, definition.fields = before ++ field :: after ∧ name ∈ field.names ∧
            ∀ other ∈ before ++ after, name ∉ other.names) ∧
    (∀ error, (⟨table, zone, fields⟩ : Builder).build = .error error ↔
      ∃ before field after, fields = before ++ field :: after ∧
        (∀ earlier ∈ before, earlier.IsSound) ∧ (before.flatMap Field.names).Nodup ∧
        field.HasFault (before.flatMap Field.names) error) ∧
    ∀ more,
      (∀ error, (⟨table, zone, fields⟩ : Builder).build = .error error →
        (⟨table, zone, fields ++ more⟩ : Builder).build = .error error) ∧
      ∀ definition extended, (⟨table, zone, fields⟩ : Builder).build = .ok definition →
        (⟨table, zone, fields ++ more⟩ : Builder).build = .ok extended →
        ∀ name field, definition.field? name = some field →
          extended.field? name = some field := by
  refine ⟨?built, fun definition hbuild => ?found, fun error => ?reported, fun more => ?extended⟩
  case built => rw [exists_build_eq_ok_iff, fitTogether_iff]
  case found =>
    obtain ⟨htable, hzone, hfields, hlocates⟩ := makes_of_build hbuild
    refine ⟨htable, hzone, ?_, hlocates, fun name => ?_⟩
    · rw [hfields]
      exact List.map_congr_left fun field _ => field.qualified_eq table
    · exact ⟨Definition.field?_eq_none_iff hlocates,
        fun field => Definition.field?_eq_some_iff_unique hlocates⟩
  case reported => simp only [build_eq_error_iff, fitTogether_iff, and_assoc]
  case extended =>
    exact ⟨fun error hfails => build_append_of_error hfails more,
      fun definition extended hbuild hextended name field =>
        field?_of_build_append hbuild hextended⟩

/-- A position and a field that is kept when another is added, and an alias that is taken already. -/
theorem build_verdict_people :
    Sample.people.index.position? "born_on" = some 1 ∧
    Sample.people.field? "name" =
      some { name := "name", type := .string, table := some "people" } ∧
    (⟨"people", .utc, [{ name := "name", type := .string },
      { name := "title", type := .text, aliases := ["label", "name"] }] ++
        [{ name := " ", type := .date }]⟩ : Builder).build = .error (.duplicateField "name") := by
  obtain ⟨-, hbuilt, -⟩ := build_verdict "people" .utc
    [{ name := "name", type := .string }, { name := "born_on", type := .date }]
  obtain ⟨-, -, -, hposition, -⟩ := hbuilt Sample.people rfl
  obtain ⟨-, -, -, hpeople⟩ := build_verdict "people" .utc [{ name := "name", type := .string }]
  obtain ⟨-, hkept⟩ := hpeople [{ name := "born_on", type := .date }]
  obtain ⟨-, -, -, htitled⟩ := build_verdict "people" .utc [{ name := "name", type := .string },
    { name := "title", type := .text, aliases := ["label", "name"] }]
  obtain ⟨hfails, -⟩ := htitled [{ name := " ", type := .date }]
  exact ⟨(hposition "born_on" 1).mpr ⟨_, rfl, by decide⟩,
    hkept ⟨"people", .utc, [{ name := "name", type := .string, table := some "people" }],
      ⟨[("name", 0)]⟩⟩ Sample.people rfl rfl "name" _ rfl, hfails _ rfl⟩

end Builder

end FieldSearch
