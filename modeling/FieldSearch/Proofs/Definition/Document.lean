import FieldSearch.Definition.Basic
import FieldSearch.Proofs.Json.RoundTrip

/-! Definition documents, written and read back. The writer leaves out what a field does not have,
and the reader takes what is left out for not there; a type is written by its name, which is one of
the spellings that are read as it. So a document is read back as it was, whatever strings and
options it holds, and reading and writing once more changes nothing. -/

namespace FieldSearch

namespace Json

variable {α σ : Type} {spacing : Spacing}

/-- The reader takes what is written for a document for a value, whatever stands behind it and
however deeply it is nested. -/
def Reads (spacing : Spacing) (reader : Reader α) (json : Json) (a : α) : Prop :=
  ∀ depth rest, Settles True a rest (reader (write spacing depth json ++ rest))

/-! ### Strings, words and lists -/

theorem readString_reads (text : String) : Reads spacing readString (.string text) text := by
  intro depth rest
  rw [write]
  exact readStringFor_written "a string" text rest

theorem readBoolean_reads (value : Bool) : Reads spacing readBoolean (.boolean value) value := by
  intro depth rest
  cases value with
  | true =>
      obtain ⟨_, hword⟩ := word_append ['t', 'r', 'u', 'e'] (by simp) rest
      rw [write, List.cons_append, readBoolean, if_pos rfl]
      exact .taken _ trivial (congrArg _ hword) rfl
  | false =>
      obtain ⟨_, hword⟩ := word_append ['f', 'a', 'l', 's', 'e'] (by simp) rest
      rw [write, List.cons_append, readBoolean, if_neg (by decide), if_pos rfl]
      exact .taken _ trivial (congrArg _ hword) rfl

/-- A string that may be missing is there. -/
theorem readOptional_reads {reader : Reader α} {text : String} {a : α}
    (hreads : Reads spacing reader (.string text) a) :
    Reads spacing (readOptional reader) (.string text) (some a) := by
  intro depth rest
  have hread := (hreads depth rest).map some id fun _ => rfl
  rw [write, writtenString, List.cons_append, List.cons_append] at hread ⊢
  rw [readOptional, if_neg (by decide)]
  exact hread

theorem readList_reads (hspacing : spacing.IsNeutral) {reader : Reader α} {items : List Json}
    {values : List α} (hplain : ∀ item ∈ items, item.IsPlain)
    (hreads : List.Forall₂ (Reads spacing reader) items values) :
    Reads spacing (readList reader) (.array items) values := by
  intro depth rest
  obtain ⟨s, hs⟩ := exists_write_array spacing depth items rest
  have htakes : List.Forall₂ (ReaderBelow.Takes
      (fun t (_ : t.length < ('[' :: s).length) => reader t) spacing (depth + 1) fun _ => True)
      items values :=
    hreads.imp fun item value hitem rest _ => hitem (depth + 1) rest
  have hread := elements_written hspacing hplain htakes hs (length_lt_cons '[' s)
  rw [hs, readList, if_pos rfl]
  exact (hread.map id Rest.behind fun _ => rfl).congr (by simp)

/-! ### Records -/

variable {n depth : Nat} {item : σ → String → Except Fault (ReaderBelow n σ)}

/-- A key that stands for the first time. -/
theorem gathers_once (set : α → σ) {key : String} {reader : Reader α} {json : Json} {a : α}
    {state : σ} (hkey : item state key = once key none reader set)
    (hreads : Reads spacing reader json a) :
    Gathers item spacing depth (fun _ => True) state [(key, json)] (set a) :=
  .cons hkey (fun rest _ => (hreads depth rest).map set id fun _ => rfl) .nil

/-- A record is read from its members, if nothing is missing in the end. -/
theorem record_reads (hspacing : spacing.IsNeutral) {kind : RecordOf σ α}
    {parts : List (String × Json)} (hplain : ∀ member ∈ parts, member.2.IsPlain) {final : σ} {a : α}
    (hgathers : ∀ n depth, Gathers (kind.key (n := n)) spacing depth (fun _ => True) kind.empty
      parts final)
    (hfinish : kind.finish final = .ok a) : Reads spacing kind.read (.object parts) a := by
  intro depth rest
  obtain ⟨s, hs⟩ := exists_write_object spacing depth parts rest
  have hread := members_written 0 hspacing hplain (hgathers ('\x7b' :: s).length (depth + 1)) hs
    (length_lt_cons '\x7b' s)
  obtain ⟨_, hread⟩ := hread.exists_ok (by simp)
  rw [hs, RecordOf.read, if_pos rfl, hread]
  dsimp only
  rw [hfinish]
  exact .taken _ trivial rfl rfl

/-- What an object holds under a key. -/
def valueAt? (key : String) : Json → Option Json
  | .object members => members.lookup key
  | _ => none

end Json

open Json

variable {spacing : Spacing}

theorem readOperator_reads (op : Operator) :
    Reads spacing readOperator (.string op.name) op := by
  intro depth rest
  have hnamed : readOperator.named op.name = .ok op := by cases op <;> rfl
  obtain ⟨_, hopened⟩ := (openedString_written 0 op.name rest).exists_ok trivial
  rw [write, writtenString, List.cons_append, List.cons_append, List.append_assoc, readOperator,
    if_pos rfl, List.singleton_append, hopened]
  dsimp only
  rw [hnamed]
  exact .taken _ trivial rfl rfl

theorem readFieldType_reads (type : FieldType) :
    Reads spacing readFieldType (.string type.name) type := by
  intro depth rest
  obtain ⟨_, hread⟩ := (readString_reads type.name depth rest).exists_ok trivial
  rw [readFieldType, hread]
  dsimp only
  rw [type.ofName?_name]
  exact .taken _ trivial rfl rfl

/-! ### Fields and documents -/

/-- A key that is written only if there is a value for it. -/
theorem gathers_given {α σ : Type} (set : Option α → σ) {n depth : Nat}
    {item : σ → String → Except Json.Fault (ReaderBelow n σ)} {key : String} {reader : Reader α}
    {toText : α → String} {value? : Option α} {state final : σ}
    (hkey : item state key = once key none (readOptional reader) set)
    (hreads : ∀ value, Reads spacing reader (.string (toText value)) value)
    (hfinal : final = value?.elim state fun value => set (some value)) :
    Gathers item spacing depth (fun _ => True) state (Field.given key (value?.map toText))
      final := by
  subst hfinal
  cases value? with
  | none => exact .nil
  | some value => exact gathers_once set hkey (readOptional_reads (hreads value))

namespace Field

/-- The members of the object that a field is written as. -/
def members (field : Field) : List (String × Json) :=
  [("name", .string field.name), ("type", .string field.type.name)]
    ++ given "column" field.column ++ given "table" field.table
    ++ given "default_operator" (field.defaultOperator?.map Operator.name)
    ++ [("only_explicit", .boolean field.onlyExplicit)] ++ field.aliasMembers

theorem toJson_eq (field : Field) : field.toJson = .object field.members :=
  rfl

/-- What is gathered from the members of a field. -/
def parts (field : Field) : FieldParts where
  name := some field.name
  type := some field.type
  column := field.column.map some
  table := field.table.map some
  defaultOperator := field.defaultOperator?.map some
  onlyExplicit := some field.onlyExplicit
  aliases := if field.aliases.isEmpty then none else some field.aliases

theorem strings_isPlain (values : List String) : (strings values).IsPlain := by
  refine .array ?_
  simp only [List.forall_mem_map]
  exact fun _ _ => .string

theorem strings_reads (hspacing : spacing.IsNeutral) (values : List String) :
    Reads spacing (readList readString) (strings values) values := by
  cases strings_isPlain values with
  | array hplain =>
      refine readList_reads hspacing hplain ?_
      exact List.forall₂_map_left_iff.mpr
        (List.forall₂_same.mpr fun text _ => readString_reads text)

/-- The members of a field are gathered one by one, each into a place of its own. -/
theorem gathers_parts (hspacing : spacing.IsNeutral) (field : Field) (n depth : Nat) :
    Gathers (FieldParts.key (n := n)) spacing depth (fun _ => True) {} field.members
      field.parts := by
  let Gathered := Gathers (FieldParts.key (n := n)) spacing depth fun _ => True
  let named : FieldParts := { name := some field.name }
  let typed : FieldParts := { named with type := some field.type }
  let placed : FieldParts := { typed with column := field.column.map some }
  let owned : FieldParts := { placed with table := field.table.map some }
  let compared : FieldParts := { owned with defaultOperator := field.defaultOperator?.map some }
  let shown : FieldParts := { compared with onlyExplicit := some field.onlyExplicit }
  have hname : Gathered {} [("name", .string field.name)] named :=
    gathers_once (fun name => ({ name := some name } : FieldParts)) rfl
      (readString_reads field.name)
  have htype : Gathered named [("type", .string field.type.name)] typed :=
    gathers_once (fun type => { named with type := some type }) rfl (readFieldType_reads field.type)
  have hcolumn : Gathered typed (given "column" (field.column.map id)) placed :=
    gathers_given (fun column => { typed with column := some column }) rfl readString_reads
      (by cases hvalue : field.column <;> simp [placed, typed, named, hvalue])
  have htable : Gathered placed (given "table" (field.table.map id)) owned :=
    gathers_given (fun table => { placed with table := some table }) rfl readString_reads
      (by cases hvalue : field.table <;> simp [owned, placed, typed, named, hvalue])
  have hoperator : Gathered owned
      (given "default_operator" (field.defaultOperator?.map Operator.name)) compared :=
    gathers_given (fun op => { owned with defaultOperator := some op }) rfl readOperator_reads
      (by cases hvalue : field.defaultOperator? <;>
        simp [compared, owned, placed, typed, named, hvalue])
  have hexplicit : Gathered compared [("only_explicit", .boolean field.onlyExplicit)] shown :=
    gathers_once (fun value => { compared with onlyExplicit := some value }) rfl
      (readBoolean_reads field.onlyExplicit)
  have hlisted : Gathered shown [("aliases", strings field.aliases)]
      { shown with aliases := some field.aliases } :=
    gathers_once (fun aliases => { shown with aliases := some aliases }) rfl
      (strings_reads hspacing field.aliases)
  have haliases : Gathered shown field.aliasMembers field.parts := by
    unfold aliasMembers parts
    split
    · exact .nil
    · exact hlisted
  rw [Option.map_id] at hcolumn htable
  exact (((((hname.append htype).append hcolumn).append htable).append hoperator).append
    hexplicit).append haliases

theorem finish_parts (field : Field) : FieldParts.finish field.parts = .ok field := by
  obtain ⟨name, type, column, table, op, onlyExplicit, aliases⟩ := field
  simp only [FieldParts.finish, parts, Option.getD_some]
  cases column <;> cases table <;> cases op <;> cases aliases <;> rfl

theorem given_isPlain {key : String} {value? : Option String} :
    ∀ member ∈ given key value?, member.2.IsPlain := by
  cases value? with
  | none => simp [given]
  | some value =>
      intro member hmem
      obtain rfl := List.mem_singleton.mp hmem
      exact .string

theorem aliasMembers_isPlain (field : Field) : ∀ member ∈ field.aliasMembers, member.2.IsPlain := by
  unfold aliasMembers
  split
  · simp
  · intro member hmem
    obtain rfl := List.mem_singleton.mp hmem
    exact strings_isPlain field.aliases

/-- There are no numbers in the members of a field. -/
theorem members_isPlain (field : Field) : ∀ member ∈ field.members, member.2.IsPlain := by
  simp only [members, List.forall_mem_append, List.forall_mem_cons]
  exact ⟨⟨⟨⟨⟨⟨.string, .string, List.forall_mem_nil _⟩, given_isPlain⟩, given_isPlain⟩,
    given_isPlain⟩, .boolean, List.forall_mem_nil _⟩, field.aliasMembers_isPlain⟩

/-- A type is written by its name, and what a field does not have is not written. -/
theorem valueAt?_toJson (field : Field) :
    field.toJson.valueAt? "type" = some (.string field.type.name) ∧
    field.toJson.valueAt? "column" = field.column.map .string ∧
    field.toJson.valueAt? "table" = field.table.map .string ∧
    field.toJson.valueAt? "default_operator" =
      field.defaultOperator?.map (fun op => .string op.name) ∧
    field.toJson.valueAt? "aliases" =
      if field.aliases = [] then none else some (strings field.aliases) := by
  obtain ⟨name, type, column, table, op, onlyExplicit, aliases⟩ := field
  cases column <;> cases table <;> cases op <;> cases aliases <;>
    exact ⟨rfl, rfl, rfl, rfl, rfl⟩

theorem toJson_isPlain (field : Field) : field.toJson.IsPlain := by
  rw [toJson_eq]
  exact .object field.members_isPlain

theorem toJson_reads (hspacing : spacing.IsNeutral) (field : Field) :
    Reads spacing fieldRecord.read field.toJson field := by
  rw [toJson_eq]
  exact record_reads hspacing field.members_isPlain (field.gathers_parts hspacing)
    field.finish_parts

end Field

namespace Document

def members (document : Document) : List (String × Json) :=
  [("table", .string document.table)] ++ Field.given "time_zone" document.timeZone
    ++ [("fields", .array (document.fields.map Field.toJson))]

theorem toJson_eq (document : Document) : document.toJson = .object document.members :=
  rfl

/-- What is gathered from the members of a document. -/
def parts (document : Document) : DocumentParts where
  table := some document.table
  timeZone := document.timeZone.map some
  fields := some document.fields

theorem finish_parts (document : Document) :
    DocumentParts.finish document.parts = .ok document := by
  obtain ⟨table, timeZone, fields⟩ := document
  cases timeZone <;> rfl

theorem fields_isPlain (document : Document) :
    ∀ item ∈ document.fields.map Field.toJson, item.IsPlain := by
  rw [List.forall_mem_map]
  exact fun field _ => field.toJson_isPlain

theorem members_isPlain (document : Document) :
    ∀ member ∈ document.members, member.2.IsPlain := by
  simp only [members, List.forall_mem_append, List.forall_mem_cons]
  exact ⟨⟨⟨.string, List.forall_mem_nil _⟩, Field.given_isPlain⟩,
    .array document.fields_isPlain, List.forall_mem_nil _⟩

theorem toJson_isPlain (document : Document) : document.toJson.IsPlain := by
  rw [toJson_eq]
  exact .object document.members_isPlain

theorem gathers_parts (hspacing : spacing.IsNeutral) (document : Document) (n depth : Nat) :
    Gathers (DocumentParts.key (n := n)) spacing depth (fun _ => True) {} document.members
      document.parts := by
  let Gathered := Gathers (DocumentParts.key (n := n)) spacing depth fun _ => True
  let named : DocumentParts := { table := some document.table }
  let zoned : DocumentParts := { named with timeZone := document.timeZone.map some }
  have hfields : List.Forall₂ (Reads spacing fieldRecord.read)
      (document.fields.map Field.toJson) document.fields :=
    List.forall₂_map_left_iff.mpr
      (List.forall₂_same.mpr fun field _ => field.toJson_reads hspacing)
  have htable : Gathered {} [("table", .string document.table)] named :=
    gathers_once (fun table => ({ table := some table } : DocumentParts)) rfl
      (readString_reads document.table)
  have hzone : Gathered named (Field.given "time_zone" (document.timeZone.map id)) zoned :=
    gathers_given (fun zone => { named with timeZone := some zone }) rfl readString_reads
      (by cases hvalue : document.timeZone <;> simp [zoned, named, hvalue])
  have hlist : Gathered zoned [("fields", .array (document.fields.map Field.toJson))]
      { zoned with fields := some document.fields } :=
    gathers_once (fun fields => { zoned with fields := some fields }) rfl
      (readList_reads hspacing document.fields_isPlain hfields)
  rw [Option.map_id] at hzone
  exact (htable.append hzone).append hlist

theorem toJson_reads (hspacing : spacing.IsNeutral) (document : Document) :
    Reads spacing documentRecord.read document.toJson document := by
  rw [toJson_eq]
  exact record_reads hspacing document.members_isPlain (document.gathers_parts hspacing)
    document.finish_parts

/-- A document is read back from its text, whatever the spacing. -/
theorem ofText_written (document : Document) (hspacing : spacing.IsNeutral) {text : String}
    (htext : text.toList = write spacing 0 document.toJson) : ofText text = .ok document := by
  have hread := document.toJson_reads hspacing 0 []
  rw [List.append_nil] at hread
  exact (document_written document.toJson_isPlain hread htext).1 trivial

theorem valueAt?_toJson (document : Document) :
    document.toJson.valueAt? "time_zone" = document.timeZone.map .string := by
  obtain ⟨table, timeZone, fields⟩ := document
  cases timeZone <;> rfl

/-- The text of a document written anew. -/
def rewritten (text : String) : Except Json.Fault String :=
  (ofText text).map fun document => document.toJson.compact

/-- Documents are read back from what is written for them, although what is not there is left out.
To write the text of a document anew a second time changes nothing, and the new text defines what
the old one did, or fails to for the same reason. -/
theorem ofText_toJson :
    (∀ document : Document, ofText document.toJson.compact = .ok document ∧
      ofText document.toJson.pretty = .ok document) ∧
    (∀ document : Document,
      document.toJson.valueAt? "time_zone" = document.timeZone.map .string ∧
      ∀ field ∈ document.fields,
        field.toJson.valueAt? "type" = some (.string field.type.name) ∧
        field.toJson.valueAt? "column" = field.column.map .string ∧
        field.toJson.valueAt? "table" = field.table.map .string ∧
        field.toJson.valueAt? "default_operator" =
          field.defaultOperator?.map (fun op => .string op.name) ∧
        field.toJson.valueAt? "aliases" =
          if field.aliases = [] then none else some (Field.strings field.aliases)) ∧
    ∀ text written, rewritten text = .ok written →
      rewritten written = .ok written ∧ Definition.ofText written = Definition.ofText text := by
  have hcompact : ∀ document : Document, ofText document.toJson.compact = .ok document :=
    fun document => document.ofText_written Spacing.compact_isNeutral (toList_compact _)
  refine ⟨fun document => ⟨hcompact document, ?_⟩, fun document => ⟨?_, ?_⟩, ?_⟩
  · exact document.ofText_written Spacing.indented_isNeutral (toList_pretty _)
  · exact document.valueAt?_toJson
  · exact fun field _ => field.valueAt?_toJson
  · intro text written hwritten
    unfold rewritten at hwritten
    cases htext : ofText text with
    | error fault =>
        rw [htext] at hwritten
        cases hwritten
    | ok document =>
        rw [htext] at hwritten
        obtain rfl : document.toJson.compact = written := Except.ok.inj hwritten
        simp [rewritten, Definition.ofText, htext, hcompact, Except.map]

/-- An indented document with a field that no definition may have, and the same on one line. -/
theorem ofText_toJson_negation : ∃ text written : String,
    written = "\x7b\"table\":\"\",\"fields\":[\x7b\"name\":\"\\\"\",\"type\":\"timestamp\","
      ++ "\"default_operator\":\"not\",\"only_explicit\":false\x7d]\x7d" ∧
    rewritten text = .ok written ∧ rewritten written = .ok written ∧
    Definition.ofText written = Definition.ofText text ∧
    Definition.ofText text = .error (.invalidDefaultOperator "\"" .not) := by
  let document : Document :=
    ⟨"", none, [{ name := "\"", type := .timestamp, defaultOperator? := some .not }]⟩
  obtain ⟨hread, -, hagain⟩ := ofText_toJson
  have hpretty := (hread document).2
  have hwritten : rewritten document.toJson.pretty = .ok document.toJson.compact := by
    rw [rewritten, hpretty]
    rfl
  obtain ⟨hsame, hdefines⟩ := hagain _ _ hwritten
  have hfails : Definition.ofText document.toJson.pretty =
      .error (.invalidDefaultOperator "\"" .not) := by
    rw [Definition.ofText, hpretty]
    rfl
  exact ⟨_, _, by cbv, hwritten, hsame, hdefines, hfails⟩

end Document

end FieldSearch
