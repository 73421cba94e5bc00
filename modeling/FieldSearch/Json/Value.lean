import FieldSearch.Json.Reader

/-!
Documents of any kind, and readers for the values that a document of a known kind is made of. A reader
for one kind of value says what it found instead, if that is the start of a value at all.
-/

namespace FieldSearch

inductive Json
  | null
  | boolean (value : Bool)
  | number (value : Json.Number)
  | string (value : String)
  | array (items : List Json)
  | object (members : List (String × Json))
  deriving Repr

namespace Json

def shape : Json → Shape
  | null => .null
  | boolean value => .boolean value
  | number value => .number value
  | string value => .string value
  | array _ => .sequence
  | object _ => .map

/-- A value of any kind, which begins at the front of the text. -/
def readValue (purpose : Purpose) (s : List Char) : Except Fault (Json × Rest s) :=
  match s with
  | [] => .error .truncated
  | c :: r =>
    if c = 'n' then
      (nullWord (c :: r)).map fun rest => (.null, rest)
    else if c = 't' then
      (trueWord (c :: r)).map fun rest => (.boolean true, rest)
    else if c = 'f' then
      (falseWord (c :: r)).map fun rest => (.boolean false, rest)
    else if c = '"' then
      (openedString purpose r).map fun (text, rest) => (.string text, rest.behind)
    else if c = '-' ∨ c.isDigit then
      (readNumber purpose (c :: r)).map fun (n, rest) => (.number n, rest)
    else if c = '[' then
      match purpose.inside? with
      | none => .error .malformed
      | some inside =>
        (elements (n := (c :: r).length) (fun t _ => readValue inside t) r (length_lt_cons c r)).map
          fun (items, rest) => (.array items, rest.behind)
    else if c = '\x7b' then
      match purpose.inside? with
      | none => .error .malformed
      | some inside =>
        (members (n := (c :: r).length) purpose
          (fun (before : List (String × Json)) key => .ok fun t _ =>
            (readValue inside t).map fun (value, rest) => ((key, value) :: before, rest))
          [] r (length_lt_cons c r)).map
          fun (members, rest) => (.object members.reverse, rest.behind)
    else .error .malformed
termination_by s.length
decreasing_by all_goals assumption

/-- A whole document: one value, with nothing but blanks around it. -/
def document {α : Type} (reader : Reader α) (text : String) : Except Fault α :=
  match afterBlanks reader text.toList with
  | .error fault => .error fault
  | .ok (a, rest) => if (skipBlanks rest.chars).isEmpty then .ok a else .error .malformed

/-- How deep arrays and objects that are kept may be nested. -/
def greatestDepth : Nat :=
  127

/-! ### Values of one kind -/

/-- What is wrong where something else was expected. Arrays and objects are known by their bracket;
other values have to be complete. -/
def unexpected (expected : String) (s : List Char) : Fault :=
  let wrong (found : Shape) : Fault := .data (.wrongType found expected)
  match s with
  | '[' :: _ => wrong .sequence
  | '\x7b' :: _ => wrong .map
  | _ =>
    match readValue (.keep 0) s with
    | .error fault => fault
    | .ok (value, _) => wrong value.shape

/-- A string, for what is expected. -/
def readStringFor (expected : String) : Reader String := fun s =>
  match s with
  | [] => .error .truncated
  | c :: r =>
    if c = '"' then
      (openedString (.keep 0) r).map fun (text, rest) => (text, rest.behind)
    else .error (unexpected expected (c :: r))

def readString : Reader String :=
  readStringFor "a string"

def readBoolean : Reader Bool := fun s =>
  match s with
  | [] => .error .truncated
  | c :: r =>
    if c = 't' then
      (trueWord (c :: r)).map fun rest => (true, rest)
    else if c = 'f' then
      (falseWord (c :: r)).map fun rest => (false, rest)
    else .error (unexpected "a boolean" (c :: r))

/-- Nothing, written `null`, or a value. -/
def readOptional {α : Type} (reader : Reader α) : Reader (Option α) := fun s =>
  match s with
  | [] => .error .truncated
  | c :: r =>
    if c = 'n' then
      (nullWord (c :: r)).map fun rest => (none, rest)
    else (reader (c :: r)).map fun (a, rest) => (some a, rest)

def readList {α : Type} (reader : Reader α) : Reader (List α) := fun s =>
  match s with
  | [] => .error .truncated
  | c :: r =>
    if c = '[' then
      (elements (n := (c :: r).length) (fun t _ => reader t) r (length_lt_cons c r)).map
        fun (items, rest) => (items, rest.behind)
    else .error (unexpected "a sequence" (c :: r))

/-- A value that nobody wants. -/
def readIgnored : Reader Unit := fun s =>
  (readValue .skip s).map fun (_, rest) => ((), rest)

end Json

end FieldSearch
