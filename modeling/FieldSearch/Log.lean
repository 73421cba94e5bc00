import FieldSearch.Condition.Compilation
import FieldSearch.Text.Quoted

/-!
What the program tells about its work. A line has a level, the part of the program that it comes from,
and a message with values behind it. A log that is set to a level shows that level and the more severe
ones.
-/

namespace FieldSearch

inductive Level
  | trace | debug | info | warn | error
  deriving DecidableEq, Repr

namespace Level

def severity : Level → Nat
  | trace => 0
  | debug => 1
  | info => 2
  | warn => 3
  | error => 4

def all : List Level :=
  [trace, debug, info, warn, error]

def name : Level → String
  | trace => "trace"
  | debug => "debug"
  | info => "info"
  | warn => "warn"
  | error => "error"

def ofName? (text : String) : Option Level :=
  all.find? fun level => level.name == text

/-- Whether a log at this level shows a line. -/
def shows (level line : Level) : Bool :=
  level.severity ≤ line.severity

end Level

/-- A value behind a message, as it is shown. -/
structure LogValue where
  key : String
  shown : String
  deriving DecidableEq, Repr

structure LogLine where
  level : Level
  source : String
  message : String
  values : List LogValue
  deriving DecidableEq, Repr

namespace LogValue

def quoted (key text : String) : LogValue :=
  ⟨key, Text.quoted text⟩

def number (key : String) (n : Nat) : LogValue :=
  ⟨key, toString n⟩

def flag (key : String) (b : Bool) : LogValue :=
  ⟨key, if b then "true" else "false"⟩

def text (value : LogValue) : String :=
  " " ++ value.key ++ "=" ++ value.shown

end LogValue

namespace LogLine

def text (line : LogLine) : String :=
  line.level.name.toUpper ++ " " ++ line.source ++ ": " ++ line.message
    ++ String.join (line.values.map LogValue.text)

/-- A test was dropped. -/
def dropped (test : DroppedTest) : LogLine where
  level := .debug
  source := "query_builder::operator"
  message := "dropping comparison, value is not a valid " ++ test.type.name
  values := [⟨"field", test.field⟩, .quoted "value" test.value]

end LogLine

end FieldSearch
