import FieldSearch.Calendar.Instant

/-!
Values bound to the placeholders of a condition, and how they look as SQL literals.
-/

namespace FieldSearch

inductive BindValue
  | string (text : String)
  | date (day : Calendar.Date)
  | timestamp (instant : Calendar.Instant)
  deriving DecidableEq, Repr

namespace BindValue

/-- The value as documents hold it. -/
def text : BindValue → String
  | string text => text
  | date day => day.text
  | timestamp instant => instant.text

/-- Inside a literal a single quote is written twice. -/
def escaped (s : List Char) : List Char :=
  s.flatMap fun c => if c = '\x27' then ['\x27', '\x27'] else [c]

def inQuotes (s : List Char) : String :=
  String.ofList ('\x27' :: s ++ ['\x27'])

/-- The value as an SQL literal. -/
def literal : BindValue → String
  | string text => inQuotes (escaped text.toList)
  | date day => inQuotes day.text.toList
  | timestamp instant => inQuotes instant.sqlText.toList

end BindValue

end FieldSearch
