import FieldSearch.Field.Basic
import FieldSearch.Json.Record
import FieldSearch.Json.Writer

/-!
Documents that define the fields of a table: a table, the name of a zone if one is wanted, and fields.
A field may leave out everything but its name and its type.
-/

namespace FieldSearch

open Json (Fault Reader ReaderBelow RecordOf)

/-- An operator: its name, or an object with the name as its only key and nothing under it. -/
def readOperator : Reader Operator := fun s =>
  match s with
  | [] => .error .truncated
  | c :: r =>
    if c = '"' then
      match Json.openedString (.keep 0) r with
      | .error fault => .error fault
      | .ok (text, rest) => (named text).map fun op => (op, rest.behind)
    else if c = '\x7b' then
      match Json.afterBlanks variantName r with
      | .error fault => .error fault
      | .ok (op, name) =>
        match Json.mark ':' name.chars with
        | .error fault => .error fault
        | .ok colon =>
          match Json.afterBlanks nothing colon.chars with
          | .error fault => .error fault
          | .ok ((), unit) =>
            match Json.mark '\x7d' unit.chars with
            | .error fault => .error fault
            | .ok brace => .ok (op, (name.after (colon.after (unit.after brace))).behind)
    else .error .malformed
where
  named (text : String) : Except Fault Operator :=
    match Operator.ofName? text with
    | some op => .ok op
    | none => .error (.data (.unknownVariant text (Operator.all.map Operator.name)))
  variantName : Reader Operator := fun s =>
    match Json.readStringFor "variant identifier" s with
    | .error fault => .error fault
    | .ok (text, rest) => (named text).map fun op => (op, rest)
  nothing : Reader Unit := fun s =>
    match s with
    | [] => .error .truncated
    | c :: r =>
      if c = 'n' then
        (Json.nullWord (c :: r)).map fun rest => ((), rest)
      else .error (Json.unexpected "unit" (c :: r))

def readFieldType : Reader FieldType := fun s =>
  match Json.readString s with
  | .error fault => .error fault
  | .ok (text, rest) =>
    match FieldType.ofName? text with
    | some type => .ok (type, rest)
    | none => .error (.data (.unknownFieldType text))

/-- What has been read of a field. -/
structure FieldParts where
  name : Option String := none
  type : Option FieldType := none
  column : Option (Option String) := none
  table : Option (Option String) := none
  defaultOperator : Option (Option Operator) := none
  onlyExplicit : Option Bool := none
  aliases : Option (List String) := none

namespace FieldParts

def key {n : Nat} (parts : FieldParts) (key : String) :
    Except Fault (ReaderBelow n FieldParts) :=
  match key with
  | "name" => Json.once key parts.name Json.readString fun a => { parts with name := some a }
  | "type" => Json.once key parts.type readFieldType fun a => { parts with type := some a }
  | "column" =>
    Json.once key parts.column (Json.readOptional Json.readString) fun a =>
      { parts with column := some a }
  | "table" =>
    Json.once key parts.table (Json.readOptional Json.readString) fun a =>
      { parts with table := some a }
  | "default_operator" =>
    Json.once key parts.defaultOperator (Json.readOptional readOperator) fun a =>
      { parts with defaultOperator := some a }
  | "only_explicit" =>
    Json.once key parts.onlyExplicit Json.readBoolean fun a =>
      { parts with onlyExplicit := some a }
  | "aliases" =>
    Json.once key parts.aliases (Json.readList Json.readString) fun a =>
      { parts with aliases := some a }
  | _ => Json.passOver parts

def steps : List (FieldParts → Reader FieldParts) :=
  [Json.inPlace Json.readString fun parts a => { parts with name := some a },
    Json.inPlace readFieldType fun parts a => { parts with type := some a },
    Json.inPlace (Json.readOptional Json.readString) fun parts a =>
      { parts with column := some a },
    Json.inPlace (Json.readOptional Json.readString) fun parts a => { parts with table := some a },
    Json.inPlace (Json.readOptional readOperator) fun parts a =>
      { parts with defaultOperator := some a },
    Json.inPlace Json.readBoolean fun parts a => { parts with onlyExplicit := some a },
    Json.inPlace (Json.readList Json.readString) fun parts a => { parts with aliases := some a }]

def finish (parts : FieldParts) : Except (String × Nat) Field :=
  match parts.name, parts.type with
  | none, _ => .error ("name", 0)
  | _, none => .error ("type", 1)
  | some name, some type =>
    .ok
      { name := name
        type := type
        column := parts.column.join
        table := parts.table.join
        defaultOperator? := parts.defaultOperator.join
        onlyExplicit := parts.onlyExplicit.getD false
        aliases := parts.aliases.getD [] }

end FieldParts

def fieldRecord : RecordOf FieldParts Field where
  expected := "struct Field"
  empty := {}
  key := FieldParts.key
  steps := FieldParts.steps
  finish := FieldParts.finish

structure Document where
  table : String
  timeZone : Option String
  fields : List Field
  deriving DecidableEq, Repr

/-- What has been read of a document. -/
structure DocumentParts where
  table : Option String := none
  timeZone : Option (Option String) := none
  fields : Option (List Field) := none

namespace DocumentParts

def key {n : Nat} (parts : DocumentParts) (key : String) :
    Except Fault (ReaderBelow n DocumentParts) :=
  match key with
  | "table" => Json.once key parts.table Json.readString fun a => { parts with table := some a }
  | "time_zone" =>
    Json.once key parts.timeZone (Json.readOptional Json.readString) fun a =>
      { parts with timeZone := some a }
  | "fields" =>
    Json.once key parts.fields (Json.readList fieldRecord.read) fun a =>
      { parts with fields := some a }
  | _ => Json.passOver parts

def steps : List (DocumentParts → Reader DocumentParts) :=
  [Json.inPlace Json.readString fun parts a => { parts with table := some a },
    Json.inPlace (Json.readOptional Json.readString) fun parts a =>
      { parts with timeZone := some a },
    Json.inPlace (Json.readList fieldRecord.read) fun parts a => { parts with fields := some a }]

def finish (parts : DocumentParts) : Except (String × Nat) Document :=
  match parts.table, parts.fields with
  | none, _ => .error ("table", 0)
  | _, none => .error ("fields", 2)
  | some table, some fields => .ok ⟨table, parts.timeZone.join, fields⟩

end DocumentParts

def documentRecord : RecordOf DocumentParts Document where
  expected := "struct DefinitionConfig"
  empty := {}
  key := DocumentParts.key
  steps := DocumentParts.steps
  finish := DocumentParts.finish

namespace Field

/-- A key with its value, if there is one. -/
def given (key : String) : Option String → List (String × Json)
  | some value => [(key, .string value)]
  | none => []

def strings (values : List String) : Json :=
  .array (values.map .string)

/-- The aliases, unless there are none. -/
def aliasMembers (field : Field) : List (String × Json) :=
  if field.aliases.isEmpty then [] else [("aliases", strings field.aliases)]

/-- The field as a document holds it. -/
def toJson (field : Field) : Json :=
  .object <|
    [("name", .string field.name), ("type", .string field.type.name)]
      ++ given "column" field.column ++ given "table" field.table
      ++ given "default_operator" (field.defaultOperator?.map Operator.name)
      ++ [("only_explicit", .boolean field.onlyExplicit)] ++ field.aliasMembers

end Field

namespace Document

def ofText (text : String) : Except Fault Document :=
  Json.document documentRecord.read text

def toJson (document : Document) : Json :=
  .object <|
    [("table", .string document.table)] ++ Field.given "time_zone" document.timeZone
      ++ [("fields", .array (document.fields.map Field.toJson))]

end Document

end FieldSearch
