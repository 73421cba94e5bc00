import FieldSearch.Query.Attempt
import FieldSearch.Query.Place

/-!
Why a text is not a query, and how that is told. A rejection points at a place and shows its line; a
text without any term is empty and no rejection.
-/

namespace FieldSearch.Query

/-- What is wrong at the place of a rejection. -/
inductive Complaint
  | expected (rules : List Rule)
  | remark (message : String)
  deriving DecidableEq, Repr

structure Rejection where
  complaint : Complaint
  place : Place
  snippet : String
  deriving DecidableEq, Repr

inductive QueryError
  | empty
  | rejected (rejection : Rejection)
  deriving DecidableEq, Repr

/-- Names in a sentence: `a`, `a or b`, `a, b, or c`. -/
def alternativesText : List String → String
  | [] => ""
  | [a] => a
  | [a, b] => a ++ " or " ++ b
  | a :: b :: more =>
    ", ".intercalate ((a :: b :: more).dropLast) ++ ", or " ++ (a :: b :: more).getLastD ""

namespace Complaint

def message : Complaint → String
  | expected [] => "parsing error: unknown parsing error"
  | expected rules => "parsing error: expected " ++ alternativesText (rules.map Rule.name)
  | remark message => message

end Complaint

namespace Rejection

/-- The rejection of `text` for a failure: the line around the farthest place, with its line ends
visible if one of them stands at that place. -/
def ofFailure (text : List Char) (failure : Failure) : Rejection :=
  let before := text.take (text.length - failure.after)
  let rest := text.drop (text.length - failure.after)
  { complaint := .expected failure.expected
    place := .after before
    snippet := String.ofList
      (showLineEnds (rest.head?.any isLineEnd) (lineAround before rest)) }

/-- A remark on the stretch between `before` and `rest`. At the end of the text no line is shown;
line ends are visible if the stretch begins or ends with one. -/
def ofStretch (before stretch rest : List Char) (message : String) : Rejection :=
  let line :=
    if stretch.isEmpty && rest.isEmpty then [] else lineAround before (stretch ++ rest)
  { complaint := .remark message
    place := .after before
    snippet := String.ofList
      (showLineEnds (stretch.head?.any isLineEnd || stretch.getLast?.any isLineEnd) line) }

def message (rejection : Rejection) : String :=
  rejection.complaint.message

/-- One line for messages. -/
def display (rejection : Rejection) : String :=
  let line := rejection.place.line
  let column := rejection.place.column
  s!"Parse error at line {line}, column {column}: " ++ rejection.message

/-- The full report, with a caret under the column. -/
def report (rejection : Rejection) : String :=
  let line := rejection.place.line
  let column := rejection.place.column
  s!"Parse Error at line {line}, column {column}:\n" ++ rejection.snippet ++ "\n"
    ++ String.ofList (List.replicate (column - 1) ' ') ++ "^\n" ++ rejection.message

end Rejection

namespace QueryError

def display : QueryError → String
  | empty => "Empty query"
  | rejected rejection => rejection.display

def report : QueryError → String
  | empty => "Empty query"
  | rejected rejection => rejection.report

end QueryError

end FieldSearch.Query
