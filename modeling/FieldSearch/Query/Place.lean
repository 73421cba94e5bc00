/-!
Places in a query text, as a reader sees them: the line, the column, and the line as it is shown above
a caret. Lines and columns count from one.
-/

namespace FieldSearch.Query

structure Place where
  line : Nat
  column : Nat
  deriving DecidableEq, Repr

namespace Place

/-- Walks from a place over characters. A line feed begins a line, together with a carriage return
right before it; every other character, also a lone carriage return, is one column. -/
def walk : Place → List Char → Place
  | place, [] => place
  | place, '\r' :: '\n' :: r => walk ⟨place.line + 1, 1⟩ r
  | place, '\n' :: r => walk ⟨place.line + 1, 1⟩ r
  | place, _ :: r => walk ⟨place.line, place.column + 1⟩ r

/-- The place after these characters of a text. -/
def after (before : List Char) : Place :=
  walk ⟨1, 1⟩ before

end Place

/-- The line that begins in `before` and goes on in `rest`, with its line feed. -/
def lineAround (before rest : List Char) : List Char :=
  let ended := rest.dropWhile (· != '\n')
  (before.reverse.takeWhile (· != '\n')).reverse ++ rest.takeWhile (· != '\n') ++ ended.take 1

def isLineEnd (c : Char) : Bool :=
  c == '\n' || c == '\r'

/-- Line ends are either made visible or left out. -/
def showLineEnds (visible : Bool) (line : List Char) : List Char :=
  if visible then
    line.map fun c => if c = '\n' then '␊' else if c = '\r' then '␍' else c
  else line.filter fun c => !isLineEnd c

end FieldSearch.Query
