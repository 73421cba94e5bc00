import FieldSearch.Condition.Compile
import FieldSearch.Digest.Md5
import FieldSearch.Json.Writer
import FieldSearch.Log
import FieldSearch.Query.Parse

/-!
Compiled searches: a condition, if the search restricts anything, and the values of its placeholders in
order. A blank query restricts nothing, nor does one of which every term was dropped.
-/

namespace FieldSearch

structure Search where
  condition : Option String
  params : List BindValue
  deriving DecidableEq, Repr

namespace Search

/-- The search for every row. -/
def matchAll : Search :=
  ⟨none, []⟩

def isMatchAll (search : Search) : Bool :=
  search.condition.isNone

/-- The condition behind its keyword, or nothing. -/
def whereClause (search : Search) : String :=
  match search.condition with
  | some condition => " WHERE " ++ condition
  | none => ""

/-- The condition with its parameters, if there is one. -/
def conditions? (search : Search) : Option (String × List BindValue) :=
  search.condition.map fun condition => (condition, search.params)

/-- The condition and the literal of each parameter, with null characters between them. -/
def fingerprintText (search : Search) : String :=
  search.condition.getD "" ++ String.join (search.params.map fun param => "\x00" ++ param.literal)

/-- A key by which equal searches are found again. -/
def fingerprint (search : Search) : String :=
  Md5.hex search.fingerprintText

def toJson (search : Search) : Json :=
  .object
    [("conditions", match search.condition with | some sql => .string sql | none => .null),
      ("params", .array (search.params.map fun param => .string param.text))]

/-- The search for what a compilation yields. Where nothing is left to test, nothing is bound. -/
def ofCondition (condition : Option Condition) (bound : List BindValue) : Search :=
  match condition with
  | some condition => ⟨some condition.sql, bound⟩
  | none => matchAll

/-- Compiles a tree. -/
def ofNode (registry : Registry) (node : Node) : Except CompileError Search :=
  match node.compile registry 0 0 with
  | (.error error, _) => .error error
  | (.ok condition, trace) => .ok (ofCondition condition trace.bound)

/-- Reads a query and compiles it. Without a query, or with a blank one, every row is searched for. -/
def ofQuery (registry : Registry) (query : Option String) : Except SearchError Search :=
  match query with
  | none => .ok matchAll
  | some text =>
    if Text.isBlank text then .ok matchAll
    else
      match Query.parse text with
      | .error error => .error (.query error)
      | .ok node =>
        match ofNode registry node with
        | .error error => .error (.compile error)
        | .ok search => .ok search

/-! ### The log of a search -/

private def queryLine (message : String) (values : List LogValue) : LogLine :=
  ⟨.debug, "query_builder::query", message, values⟩

def parsedLine (node : Node) : LogLine :=
  ⟨.trace, "search_syntax::builder", "parsed search query", [⟨"node", node.describe⟩]⟩

/-- A condition as the log shows it. -/
private def shownCondition : Option String → String
  | some sql => "Some(" ++ Text.quoted sql ++ ")"
  | none => "None"

private def compiledLine (text : String) (search : Search) : LogLine :=
  queryLine "compiled search query"
    [.quoted "query" text, ⟨"conditions", shownCondition search.condition⟩,
      .number "params" search.params.length]

/-- The lines about compiling a tree that was read from a text. -/
def compileLog (registry : Registry) (text : String) (node : Node) : List LogLine :=
  let (result, trace) := node.compile registry 0 0
  let dropped := trace.dropped.map LogLine.dropped
  match result with
  | .error _ => dropped
  | .ok condition =>
    dropped
      ++ (if condition.isNone then
            [queryLine "every search term was dropped, matching all rows" []]
          else [])
      ++ [compiledLine text (ofCondition condition trace.bound)]

/-- The lines about a search, up to the step that fails, if one does. -/
def log (registry : Registry) (query : Option String) : List LogLine :=
  match query.filter fun text => !Text.isBlank text with
  | none => [queryLine "blank search query, matching all rows" []]
  | some text =>
    match Query.parse text with
    | .error _ => []
    | .ok node => parsedLine node :: compileLog registry text node

end Search

end FieldSearch
