import FieldSearch.Command.Basic
import FieldSearch.Definition.Summary
import FieldSearch.Query.Document
import FieldSearch.Search

/-!
What the program answers to a command: lines for the log, and a text or a reason why there is none. The
definition is loaded before the query is looked at.
-/

namespace FieldSearch

inductive CommandError
  | file (fault : FileFault)
  | definition (error : DefinitionError)
  | query (error : Query.QueryError)
  | compile (error : CompileError)
  deriving DecidableEq, Repr

namespace CommandError

def ofSearchError : SearchError → CommandError
  | .query error => query error
  | .compile error => compile error

/-- What is shown before the program gives up. Faults of a query are shown in place. -/
def report : CommandError → String
  | file fault => "Failed to read file: " ++ fault.message
  | definition error => "Invalid search definition: " ++ error.message
  | query error => error.report
  | compile error => "Failed to compile the search query: " ++ error.message

end CommandError

structure Response where
  log : List LogLine
  result : Except CommandError String

namespace Response

def versionText : String :=
  "scoped-search 0.1.0"

private def loadedLine (path : String) (definition : Definition) : LogLine where
  level := .debug
  source := "scoped_search"
  message := "Loaded search definition"
  values :=
    [.quoted "path" path, .quoted "table" definition.table,
      .number "fields" definition.fields.length]

private def doneLine (definition : Definition) (search : Search) : LogLine where
  level := .info
  source := "scoped_search"
  message := "Compiled search query"
  values :=
    [.quoted "table" definition.table, .number "params" search.params.length,
      .flag "match_all" search.isMatchAll]

/-- Goes on with the definition in a file, if it can be loaded. -/
def withDefinition (path : String) (text : Except FileFault String)
    (next : Definition → Response) : Response :=
  match text with
  | .error fault => ⟨[], .error (.file fault)⟩
  | .ok text =>
    match Definition.ofText text with
    | .error error => ⟨[], .error (.definition error)⟩
    | .ok definition =>
      let response := next definition
      ⟨loadedLine path definition :: response.log, response.result⟩

def compile (query : Option String) (definition : Definition) : Response :=
  let lines := Search.log definition.registry query
  match Search.ofQuery definition.registry query with
  | .error error => ⟨lines, .error (.ofSearchError error)⟩
  | .ok search => ⟨lines ++ [doneLine definition search], .ok search.toJson.pretty⟩

def ast (query : String) : Response :=
  match Query.parse query with
  | .error error => ⟨[], .error (.query error)⟩
  | .ok node => ⟨[Search.parsedLine node], .ok node.toJson.pretty⟩

def fields (definition : Definition) : Response :=
  ⟨[], .ok definition.summary.pretty⟩

/-- The response to a command, given the text of the file that it reads. -/
def ofCommand (command : Command) (text : Except FileFault String) : Response :=
  match command with
  | .compile path query _ => withDefinition path text (compile query)
  | .ast query => ast query
  | .fields path => withDefinition path text fields
  | .version => ⟨[], .ok versionText⟩

end Response

/-- How the program ends. -/
structure Ending where
  code : Nat
  output : String
  errors : String
  deriving DecidableEq, Repr

namespace Ending

def ofError (error : CommandError) : Ending :=
  ⟨1, "", error.report ++ "\n"⟩

/-- The end of a command without a file to write. -/
def printed (response : Response) : Ending :=
  match response.result with
  | .error error => ofError error
  | .ok text => ⟨0, text ++ "\n", ""⟩

/-- The end of a command whose text went to a file, or failed to. -/
def written (response : Response) (written : Except FileFault Unit) : Ending :=
  match response.result, written with
  | .error error, _ => ofError error
  | .ok _, .error fault => ofError (.file fault)
  | .ok _, .ok () => ⟨0, "", ""⟩

end Ending

end FieldSearch
