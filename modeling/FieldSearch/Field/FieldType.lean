import FieldSearch.Text.White

/-!
Types of columns. A type name is read in many spellings: case, the white space around and between
words and everything from the first parenthesis on do not matter.
-/

namespace FieldSearch

inductive FieldType
  | string | text | integer | float | decimal | boolean | date | datetime | timestamp
  deriving DecidableEq, Repr

namespace FieldType

def name : FieldType → String
  | string => "string"
  | text => "text"
  | integer => "integer"
  | float => "float"
  | decimal => "decimal"
  | boolean => "boolean"
  | date => "date"
  | datetime => "datetime"
  | timestamp => "timestamp"

def isTextual : FieldType → Bool
  | string | text => true
  | _ => false

def isNumerical : FieldType → Bool
  | integer | float | decimal => true
  | _ => false

def isTemporal : FieldType → Bool
  | date | datetime | timestamp => true
  | _ => false

/-- The names of every type, in their normal spelling. -/
def spellings : List (String × FieldType) :=
  [("string", string), ("varchar", string), ("character varying", string), ("char", string),
    ("character", string), ("citext", string),
    ("text", text), ("tinytext", text), ("mediumtext", text), ("longtext", text),
    ("integer", integer), ("int", integer), ("int2", integer), ("int4", integer),
    ("int8", integer), ("smallint", integer), ("bigint", integer), ("tinyint", integer),
    ("serial", integer), ("bigserial", integer),
    ("float", float), ("float4", float), ("float8", float), ("double", float),
    ("double precision", float), ("real", float),
    ("decimal", decimal), ("numeric", decimal), ("money", decimal),
    ("boolean", boolean), ("bool", boolean),
    ("date", date), ("datetime", datetime),
    ("timestamp", timestamp), ("timestamptz", timestamp), ("timestamp with time zone", timestamp),
    ("timestamp without time zone", timestamp)]

/-- The normal spelling of a type name: lower case, without a parenthesis and what follows it, and
with one blank between words. -/
def normalize (s : List Char) : List Char :=
  let lower := Text.lowerAscii (Text.trim s)
  [' '].intercalate (Text.words (lower.takeWhile (· != '(')))

def ofName? (text : String) : Option FieldType :=
  spellings.lookup (String.ofList (normalize text.toList))

/-- The name of a type is a spelling of it. -/
theorem ofName?_name (type : FieldType) : ofName? type.name = some type := by
  cases type <;> decide

/-- What is said of a name that no type has. -/
def unknownMessage (text : String) : String :=
  "Unknown field type: " ++ text

/-- The type of a name in any spelling, or what is said of the name as it is written. -/
def ofName (text : String) : Except String FieldType :=
  match ofName? text with
  | some type => .ok type
  | none => .error (unknownMessage text)

theorem ofName_of_some {text : String} {type : FieldType} (hfound : ofName? text = some type) :
    ofName text = .ok type := by
  unfold ofName
  rw [hfound]

theorem ofName_of_none {text : String} (hfound : ofName? text = none) :
    ofName text = .error ("Unknown field type: " ++ text) := by
  unfold ofName unknownMessage
  rw [hfound]

end FieldType

end FieldSearch
