import FieldSearch.Definition.Summary
import FieldSearch.Proofs.Compile.Faults
import FieldSearch.Proofs.Definition.Building
import FieldSearch.Proofs.Query.RoundTrip
import FieldSearch.Proofs.Search.Blank

/-! Searching in a field by name. Every field of a definition that was built can be asked for in a
text by each of its names, whatever characters these are made of, if they stand in marks; and the
column that is tested is the one that the list of fields shows. -/

namespace FieldSearch

/-! ### The column that is listed -/

/-- The string that an object holds under a key. -/
def Json.textAt? (key : String) : Json → Option String
  | .object members =>
    match members.lookup key with
    | some (.string text) => some text
    | _ => none
  | _ => none

/-- The column that the list of fields shows for the field with a name. -/
def Definition.listedColumn? (definition : Definition) (name : String) : Option String :=
  match definition.summary with
  | .array summaries =>
    (summaries.find? fun summary => summary.textAt? "name" = some name).bind (Json.textAt? "column")
  | _ => none

theorem Field.textAt?_summary_name (field : Field) :
    field.summary.textAt? "name" = some field.name :=
  rfl

theorem Field.textAt?_summary_column (field : Field) :
    field.summary.textAt? "column" = some field.columnSql :=
  rfl

/-- Where every name leads to one field, every field is listed with its own column. -/
theorem Definition.listedColumn?_of_mem {definition : Definition} {field : Field}
    (hlocates : definition.index.Locates definition.fields) (hfield : field ∈ definition.fields) :
    definition.listedColumn? field.name = some field.columnSql := by
  obtain ⟨before, after, hfields⟩ := List.append_of_mem hfield
  have hothers := hlocates.not_mem_names hfields
    (show field.name ∈ field.names by simp [Field.names])
  have hfound : definition.fields.find? (fun other => other.name = field.name) = some field := by
    rw [List.find?_eq_some_iff_append]
    refine ⟨by simp, before, after, hfields, fun other hother => ?_⟩
    have hname := hothers other (List.mem_append_left after hother)
    simp only [Field.names, List.mem_cons, not_or] at hname
    simpa using Ne.symm hname.1
  have hnamed : (fun summary : Json => decide (summary.textAt? "name" = some field.name)) ∘
      Field.summary = fun other => decide (other.name = field.name) := by
    funext other
    simp [Field.textAt?_summary_name]
  show ((definition.fields.map Field.summary).find? _).bind _ = _
  rw [List.find?_map, hnamed, hfound]
  exact field.textAt?_summary_column

/-! ### Names and values in marks -/

namespace Query

/-- The text in double marks, with a backslash before each backslash and each of these marks. -/
def inMarks (text : String) : String :=
  String.ofList ('"' :: escape '"' text.toList ++ ['"'])

/-- A name and a value in marks, with a symbol between them, are read as a comparison. -/
theorem parse_inMarks {symbol : String} {op : Operator} (hop : Operator.ofSymbol? symbol = some op)
    (name value : String) :
    parse (inMarks name ++ symbol ++ inMarks value) = .ok (.comparison name op value) := by
  have hsymbol : WritesOperator op symbol.toList := by
    unfold WritesOperator
    rwa [String.ofList_toList]
  have hname : WritesValue name _ := .quoted (.inl rfl)
  have hvalue : WritesValue value _ := .quoted (.inl rfl)
  have hterm := Renders.comparison hname isSpace_nil hsymbol isSpace_nil hvalue
  have hnormal : (Node.comparison name op value).IsNormal := .comparison hsymbol.ne_not
  refine parse_of_isRendering hnormal
    ⟨[], _, [], ?_, isSpace_nil, .single (.single hterm), isSpace_nil⟩
  simp [inMarks]

theorem not_isBlank_inMarks (name rest : String) : ¬Text.isBlank (inMarks name ++ rest) := by
  rw [Text.not_isBlank_iff]
  exact ⟨'"', by simp [inMarks], by decide⟩

end Query

/-! ### What is tested -/

theorem hasWildcard_eq_false_iff {value : String} :
    hasWildcard value = false ↔
      value.toList.head? ≠ some '%' ∧ value.toList.getLast? ≠ some '%' := by
  simp [hasWildcard]

theorem Operator.isPattern_iff {op : Operator} : op.isPattern ↔ op = .like ∨ op = .unlike := by
  cases op <;> simp [isPattern]

/-- The value for a test is a pattern, a date or time, or the text itself. -/
theorem Field.boundValue?_eq (field : Field) (zone : Calendar.Zone) (op : Operator)
    (value : String) :
    field.boundValue? zone op value =
      if (op = .like ∨ op = .unlike) ∧ value.toList.head? ≠ some '%' ∧
          value.toList.getLast? ≠ some '%' then some (.string ("%" ++ value ++ "%"))
      else if field.type.isTemporal then field.readTemporal zone value
      else some (.string value) := by
  unfold boundValue?
  simp only [Bool.and_eq_true, Bool.not_eq_true', Operator.isPattern_iff, hasWildcard_eq_false_iff]
  rfl

namespace Search

/-- The search by a condition with one value, or for every row if there is none. -/
def ofBound (sql : String) : Option BindValue → Search
  | some bound => ⟨some sql, [bound]⟩
  | none => matchAll

theorem ofCondition_yield (field : Field) (zone : Calendar.Zone) (token : String) (op : Operator)
    (value : String) :
    ofCondition (field.yield zone token op value).condition
        (field.yield zone token op value).bound =
      ofBound (field.columnSql ++ " " ++ token ++ " ?") (field.boundValue? zone op value) := by
  unfold Field.yield
  cases field.boundValue? zone op value <;> rfl

/-- A comparison with a field that there is tests its column, unless it is dropped. -/
theorem ofNode_comparison {definition : Definition} {name : String} {op : Operator}
    {value token : String} {field : Field} (hfield : definition.field? name = some field)
    (htoken : op.token? = some token) :
    ofNode definition.registry (.comparison name op value) =
      .ok (ofBound (field.columnSql ++ " " ++ token ++ " ?")
        (field.boundValue? definition.zone op value)) := by
  have hop : op ≠ .not := by
    rintro rfl
    cases htoken
  have hcompile : (Node.comparison name op value).compile definition.registry 0 =
      definition.registry.testNamed name op value :=
    Node.compile_named hop
  unfold ofNode
  rw [hcompile]
  rcases hrun : definition.registry.testNamed name op value 0 with ⟨error | condition, trace⟩
  · have hfails := (Registry.testNamed_reports name value hop 0 error).mp (by rw [hrun])
    simp [hfield] at hfails
  · obtain ⟨found, written, hfound, hwritten, hyield⟩ := Registry.testNamed_eq_ok hrun
    obtain rfl : field = found := Option.some.inj (hfield.symm.trans hfound)
    obtain rfl : token = written := Option.some.inj (htoken.symm.trans hwritten)
    have hsearch := ofCondition_yield field definition.zone token op value
    rw [show field.yield definition.zone token op value = _ from hyield] at hsearch
    exact congrArg Except.ok hsearch

/-- Every field of a definition that was built is searched for by each of its names, and in the column
that is listed for it: a pattern is bound with anything around it unless it says itself where anything
may stand, a date or time is bound as what it is read as, other values as they are, and without a
value to bind every row is searched for. -/
theorem ofQuery_named (builder : Builder) (definition : Definition)
    (hbuild : builder.build = .ok definition) (field : Field) (hfield : field ∈ definition.fields)
    (name : String) (hname : name ∈ field.names) (symbol : String) (op : Operator)
    (hop : Operator.ofSymbol? symbol = some op) (value : String) :
    ∃ column token, definition.listedColumn? field.name = some column ∧
      column = field.columnSql ∧ op.token? = some token ∧
      ofQuery definition.registry (some (Query.inMarks name ++ symbol ++ Query.inMarks value)) =
        .ok (ofBound (column ++ " " ++ token ++ " ?")
          (if (op = .like ∨ op = .unlike) ∧ value.toList.head? ≠ some '%' ∧
              value.toList.getLast? ≠ some '%' then some (.string ("%" ++ value ++ "%"))
            else if field.type.isTemporal then field.readTemporal definition.zone value
            else some (.string value))) := by
  have hlocates := (Builder.makes_of_build hbuild).locates
  have hsymbol : Query.WritesOperator op symbol.toList := by
    unfold Query.WritesOperator
    rwa [String.ofList_toList]
  obtain ⟨token, htoken⟩ := Operator.exists_token hsymbol.ne_not
  refine ⟨field.columnSql, token, Definition.listedColumn?_of_mem hlocates hfield, rfl, htoken, ?_⟩
  have hfound := (Definition.field?_eq_some_iff hlocates).mpr ⟨hfield, hname⟩
  have hblank : ¬Text.isBlank (Query.inMarks name ++ symbol ++ Query.inMarks value) := by
    rw [String.append_assoc]
    exact Query.not_isBlank_inMarks name _
  rw [ofQuery_of_not_blank hblank (Query.parse_inMarks hop name value),
    ofNode_comparison hfound htoken, Field.boundValue?_eq]
  rfl

/-- An alias with marks and a keyword in it, for a column that is named otherwise: no year has a
thirtieth of February, and a pattern is bound without being read. -/
theorem ofQuery_named_birth : ∃ definition : Definition,
    (⟨"people", .utc, [{
      name := "born_on", type := .date, column := some "birth",
      aliases := ["not \"now\""] }]⟩ : Builder).build = .ok definition ∧
    ofQuery definition.registry (some "\"not \\\"now\\\"\"<\"2000-02-30\"") = .ok matchAll ∧
    ofQuery definition.registry (some "\"not \\\"now\\\"\"~\"20\"") =
      .ok ⟨some "people.birth LIKE ?", [.string "%20%"]⟩ := by
  have hbuild : (⟨"people", .utc, [{
      name := "born_on", type := .date, column := some "birth",
      aliases := ["not \"now\""] }]⟩ : Builder).build = .ok ⟨"people", .utc, [{
        name := "born_on", type := .date, column := some "birth", table := some "people",
        aliases := ["not \"now\""] }], ⟨[("not \"now\"", 0), ("born_on", 0)]⟩⟩ :=
    rfl
  refine ⟨_, hbuild, ?_, ?_⟩
  · obtain ⟨_, token, -, rfl, htoken, hsearch⟩ := ofQuery_named _ _ hbuild _ (.head _)
      "not \"now\"" (.tail _ (.head _)) "<" .lt rfl "2000-02-30"
    exact hsearch
  · obtain ⟨_, token, -, rfl, htoken, hsearch⟩ := ofQuery_named _ _ hbuild _ (.head _)
      "not \"now\"" (.tail _ (.head _)) "~" .like rfl "20"
    obtain rfl : "LIKE" = token := Option.some.inj htoken
    exact hsearch

end Search

end FieldSearch
