import FieldSearch.Calendar.ZoneTable
import FieldSearch.Definition.Document
import FieldSearch.Definition.Index
import FieldSearch.Field.Number
import FieldSearch.File

/-!
Definitions: the searchable fields of one table, with the zone in which times are read and an index of
all names and aliases. They are built field by field, and the first field that does not fit decides why
a definition cannot be built.
-/

namespace FieldSearch

open Calendar (Zone)

inductive DefinitionError
  | file (fault : FileFault)
  | document (fault : Json.Fault)
  | unknownTimeZone (name : String)
  | emptyFieldName
  | invalidDefaultOperator (field : String) (op : Operator)
  | duplicateField (name : String)
  deriving DecidableEq, Repr

/-- What is said of a document that is none; data faults have texts of their own. -/
def Json.Fault.message : Json.Fault → String
  | .malformed => "malformed document"
  | .truncated => "unexpected end of document"
  | .data fault => fault.message

def DefinitionError.message : DefinitionError → String
  | file fault => "failed to read search definition: " ++ fault.message
  | document fault => "failed to decode search definition: " ++ fault.message
  | unknownTimeZone name => s!"unknown time zone '{name}'"
  | emptyFieldName => "field name must not be empty"
  | invalidDefaultOperator field op =>
    s!"field '{field}' cannot use '" ++ op.display ++ "' as its default operator"
  | duplicateField name => s!"field name or alias '{name}' is defined more than once"

structure Definition where
  table : String
  zone : Zone
  fields : List Field
  index : Index
  deriving DecidableEq, Repr

/-- A definition in the making. -/
structure Builder where
  table : String
  zone : Zone := Zone.utc
  fields : List Field := []
  deriving DecidableEq, Repr

/-- The field with a table of its own, unless the table has no name. -/
def Field.qualified (table : String) (field : Field) : Field :=
  if field.table.isNone && !table.isEmpty then { field with table := some table } else field

/-- The fields that are in the table already, and where their names lead. -/
structure Catalog where
  fields : List Field := []
  index : Index := {}
  deriving DecidableEq, Repr

namespace Catalog

/-- One more field, behind the others and under new names, of which no two are alike. -/
def add (table : String) (catalog : Catalog) (field : Field) : Except DefinitionError Catalog :=
  if Text.isBlank field.name then .error .emptyFieldName
  else if field.defaultOperator? = some .not then
    .error (.invalidDefaultOperator field.name .not)
  else
    match catalog.index.insertAll catalog.fields.length field.names with
    | .error name => .error (.duplicateField name)
    | .ok index => .ok ⟨catalog.fields ++ [field.qualified table], index⟩

def addAll (table : String) (catalog : Catalog) : List Field → Except DefinitionError Catalog
  | [] => .ok catalog
  | field :: fields =>
    match catalog.add table field with
    | .error e => .error e
    | .ok next => addAll table next fields

end Catalog

namespace Builder

def withZone (builder : Builder) (zone : Zone) : Builder :=
  { builder with zone := zone }

def withField (builder : Builder) (field : Field) : Builder :=
  { builder with fields := builder.fields ++ [field] }

def build (builder : Builder) : Except DefinitionError Definition :=
  match Catalog.addAll builder.table {} builder.fields with
  | .error e => .error e
  | .ok catalog => .ok ⟨builder.table, builder.zone, catalog.fields, catalog.index⟩

end Builder

namespace Document

/-- The zone that a document names, UTC if it names none. A zone that is not supported is unknown. -/
def zone (document : Document) : Except DefinitionError Zone :=
  match document.timeZone with
  | none => .ok Zone.utc
  | some name =>
    match Zone.named? name with
    | some zone => .ok zone
    | none => .error (.unknownTimeZone name)

def build (document : Document) : Except DefinitionError Definition :=
  match document.zone with
  | .error e => .error e
  | .ok zone => Builder.build ⟨document.table, zone, document.fields⟩

end Document

namespace Definition

/-- The definition in the text of a document. -/
def ofText (text : String) : Except DefinitionError Definition :=
  match Document.ofText text with
  | .error fault => .error (.document fault)
  | .ok document => document.build

/-- The definition in a file with these bytes, if there is one. -/
def ofFile (bytes : Option ByteArray) : Except DefinitionError Definition :=
  match textOfBytes bytes with
  | .error fault => .error (.file fault)
  | .ok text => ofText text

/-- The field at the position to which a name or alias leads, which has to be exact. Every position in
the index of a definition that was built is that of a field. -/
def field? (definition : Definition) (name : String) : Option Field :=
  (definition.index.position? name).bind fun position => definition.fields[position]?

/-- Whether a term without a field name, compared in this way, looks for text. -/
def looksForText : Option Operator → Bool
  | none => true
  | some op => op = .like || op = .unlike || op = .eq || op = .ne

/-- The fields in which a term without a field name is looked for. Text is sought by the comparisons
that make sense for it, numbers and times wherever the value is one. -/
def defaultFields (definition : Definition) (value : String) (op : Option Operator) : List Field :=
  let textual := looksForText op
  let numerical := isNumber value
  let temporal := (Calendar.readInstant definition.zone value).isSome
  definition.fields.filter fun field =>
    !field.onlyExplicit &&
      ((textual && field.type.isTextual) || (numerical && field.type.isNumerical) ||
        (temporal && field.type.isTemporal))

end Definition

end FieldSearch
