import FieldSearch.Calendar.Reading
import FieldSearch.Field.BindValue
import FieldSearch.Field.FieldType
import FieldSearch.Query.Operator

/-!
Fields that may be searched. A field has a name and aliases in queries, and a column, which is
qualified by a table unless that is empty.
-/

namespace FieldSearch

structure Field where
  name : String
  type : FieldType
  column : Option String := none
  table : Option String := none
  defaultOperator? : Option Operator := none
  onlyExplicit : Bool := false
  aliases : List String := []
  deriving DecidableEq, Repr

namespace Field

/-- Every name that a field answers to. -/
def names (field : Field) : List String :=
  field.name :: field.aliases

def withColumn (field : Field) (column : String) : Field :=
  { field with column := some column }

def withTable (field : Field) (table : String) : Field :=
  { field with table := some table }

def withDefaultOperator (field : Field) (op : Operator) : Field :=
  { field with defaultOperator? := some op }

def withAlias (field : Field) (name : String) : Field :=
  { field with aliases := field.aliases ++ [name] }

/-- The field, searched only where it is named. -/
def explicitly (field : Field) : Field :=
  { field with onlyExplicit := true }

/-- The column in conditions. -/
def columnSql (field : Field) : String :=
  let column := field.column.getD field.name
  match field.table with
  | some table => if table.isEmpty then column else table ++ "." ++ column
  | none => column

/-- The comparison made when a query gives no operator. -/
def defaultOperator (field : Field) : Operator :=
  field.defaultOperator?.getD (if field.type.isTextual then .like else .eq)

/-- The value that a literal stands for in a temporal field: a date for dates, an instant otherwise. -/
def readTemporal (field : Field) (zone : Calendar.Zone) (text : String) : Option BindValue :=
  match field.type with
  | .date => (Calendar.readDate zone text).map .date
  | .datetime | .timestamp => (Calendar.readInstant zone text).map .timestamp
  | _ => none

end Field

end FieldSearch
