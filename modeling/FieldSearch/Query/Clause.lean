import FieldSearch.Query.Node

/-!
The grammar tree of a query, as written: groups are kept, lists are nested the way the grammar nests
them, and literals keep their quotes. `Clause.toNode` is the tree that the query stands for.
-/

namespace FieldSearch.Query

/-- A field name or a value as written. -/
inductive Literal
  | word (chars : List Char)
  | quoted (mark : Char) (inside : List Char)
  deriving DecidableEq, Repr

namespace Literal

/-- The text that the inside of a quoted literal stands for: a backslash with `n`, `t` or `r` is a
line feed, tab or carriage return, and with any other character that character. -/
def unescape : List Char → List Char
  | [] => []
  | ['\\'] => ['\\']
  | '\\' :: c :: r =>
    (if c = 'n' then '\n' else if c = 't' then '\t' else if c = 'r' then '\r' else c) :: unescape r
  | c :: r => c :: unescape r

/-- The text that a literal stands for. -/
def text : Literal → String
  | word chars => String.ofList chars
  | quoted _ inside => String.ofList (unescape inside)

end Literal

inductive Clause
  | value (literal : Literal)
  | prefixed (op : Operator) (value : Literal)
  | comparison (field : Literal) (op : Operator) (value : Literal)
  | group (inner : Clause)
  | negation (operand : Clause)
  | list (op : Connective) (first : Clause) (rest : List Clause)
  deriving Repr

mutual

/-- The query that a clause stands for. Groups leave no trace, lists with the same connective inside
one another are one list, and a list of one stands for its member. -/
def Clause.toNode : Clause → Node
  | .value literal => .leaf literal.text
  | .prefixed op literal => .operator op [.leaf literal.text]
  | .comparison field op literal => .comparison field.text op literal.text
  | .group inner => inner.toNode
  | .negation operand => .not operand.toNode
  | .list op first rest => Node.join op (first.toNode :: Clause.toNodes rest)

def Clause.toNodes : List Clause → List Node
  | [] => []
  | clause :: clauses => clause.toNode :: Clause.toNodes clauses

end

end FieldSearch.Query
