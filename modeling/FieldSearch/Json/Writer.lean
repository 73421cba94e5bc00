import FieldSearch.Json.Value

/-!
Writing documents, on one line or indented. In strings only quotes, backslashes and control characters
are escaped.
-/

namespace FieldSearch

namespace Json

def lowerHex (n : Nat) : Char :=
  (Nat.toDigits 16 n).headD '0'

/-- A character inside a string. -/
def writtenChar (c : Char) : List Char :=
  if c = '"' then ['\\', '"']
  else if c = '\\' then ['\\', '\\']
  else if c = '\x08' then ['\\', 'b']
  else if c = '\x0c' then ['\\', 'f']
  else if c = '\n' then ['\\', 'n']
  else if c = '\r' then ['\\', 'r']
  else if c = '\t' then ['\\', 't']
  else if c.toNat < 0x20 then
    ['\\', 'u', '0', '0', lowerHex (c.toNat / 16), lowerHex (c.toNat % 16)]
  else [c]

def writtenString (text : String) : List Char :=
  '"' :: text.toList.flatMap writtenChar ++ ['"']

/-- How the parts of an array or object are set apart: the text behind the opening bracket, between
two parts, and before the closing bracket, at a depth; and the text behind the colon of a member. -/
structure Spacing where
  opening : Nat → List Char
  between : Nat → List Char
  closing : Nat → List Char
  colon : List Char

namespace Spacing

def compact : Spacing where
  opening _ := []
  between _ := [',']
  closing _ := []
  colon := [':']

def newLine (depth : Nat) : List Char :=
  '\n' :: List.replicate (2 * depth) ' '

/-- Two blanks for each level. -/
def indented : Spacing where
  opening depth := newLine (depth + 1)
  between depth := ',' :: newLine (depth + 1)
  closing depth := newLine depth
  colon := [':', ' ']

end Spacing

mutual

def write (spacing : Spacing) (depth : Nat) : Json → List Char
  | .null => ['n', 'u', 'l', 'l']
  | .boolean true => ['t', 'r', 'u', 'e']
  | .boolean false => ['f', 'a', 'l', 's', 'e']
  | .number value => value.text.toList
  | .string value => writtenString value
  | .array [] => ['[', ']']
  | .array (item :: items) =>
    '[' :: spacing.opening depth ++ write spacing (depth + 1) item
      ++ writeItems spacing depth items ++ spacing.closing depth ++ [']']
  | .object [] => ['\x7b', '\x7d']
  | .object ((key, value) :: members) =>
    '\x7b' :: spacing.opening depth ++ writtenString key ++ spacing.colon
      ++ write spacing (depth + 1) value
      ++ writeMembers spacing depth members ++ spacing.closing depth ++ ['\x7d']

def writeItems (spacing : Spacing) (depth : Nat) : List Json → List Char
  | [] => []
  | item :: items =>
    spacing.between depth ++ write spacing (depth + 1) item ++ writeItems spacing depth items

def writeMembers (spacing : Spacing) (depth : Nat) : List (String × Json) → List Char
  | [] => []
  | (key, value) :: members =>
    spacing.between depth ++ writtenString key ++ spacing.colon
      ++ write spacing (depth + 1) value ++ writeMembers spacing depth members

end

/-- The document on one line. -/
def compact (json : Json) : String :=
  String.ofList (write .compact 0 json)

/-- The document with a line for every item and member. -/
def pretty (json : Json) : String :=
  String.ofList (write .indented 0 json)

end Json

end FieldSearch
