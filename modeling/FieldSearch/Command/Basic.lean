/-!
The command line. Options stand behind a command, each at most once, as `--name value` or
`--name=value`; a value that stands alone may not look like an option.
-/

namespace FieldSearch

inductive Command
  | compile (definition : String) (query output : Option String)
  | ast (query : String)
  | fields (definition : String)
  | version
  deriving DecidableEq, Repr

namespace Command

/-- The name and the value of an option that holds both. -/
def splitOption (argument : List Char) : List Char × Option (List Char) :=
  let name := argument.takeWhile (· != '=')
  match argument.dropWhile (· != '=') with
  | [] => (name, none)
  | _ :: value => (name, some value)

/-- Whether an argument is taken for an option and not for a value. -/
def looksLikeOption (argument : String) : Bool :=
  argument.toList.head? == some '-' && argument != "-"

def addOption (known : List String) (given : List (String × String)) (name : List Char)
    (value : String) : Option (List (String × String)) :=
  let name := String.ofList name
  if known.contains name && (given.lookup name).isNone then some ((name, value) :: given) else none

/-- The values of the options in the arguments, if these are nothing but known options. -/
def options? (known : List String) :
    List (String × String) → List String → Option (List (String × String))
  | given, [] => some given
  | given, ["--"] => some given
  | given, argument :: rest =>
    match argument.toList with
    | '-' :: '-' :: option =>
      match splitOption option, rest with
      | (name, some value), rest =>
        (addOption known given name (String.ofList value)).bind fun given =>
          options? known given rest
      | (_, none), [] => none
      | (name, none), value :: rest =>
        if looksLikeOption value then none
        else (addOption known given name value).bind fun given => options? known given rest
    | _ => none

/-- The command that arguments ask for, if they ask for one. -/
def ofArguments? : List String → Option Command
  | [] => none
  | name :: rest =>
    match name with
    | "--version" | "-V" => some version
    | "compile" => do
      let given ← options? ["definition", "query", "output"] [] rest
      let definition ← given.lookup "definition"
      return compile definition (given.lookup "query") (given.lookup "output")
    | "ast" => do
      let given ← options? ["query"] [] rest
      let query ← given.lookup "query"
      return ast query
    | "fields" => do
      let given ← options? ["definition"] [] rest
      let definition ← given.lookup "definition"
      return fields definition
    | _ => none

/-- The file that a command reads. -/
def source? : Command → Option String
  | compile definition _ _ => some definition
  | fields definition => some definition
  | _ => none

/-- The file that a command writes. -/
def destination? : Command → Option String
  | compile _ _ output => output
  | _ => none

end Command

end FieldSearch
