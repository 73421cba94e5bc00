/-!
Operators of the query language. A comparison may be written with more than one symbol; `not` has a
keyword and a mark of its own and no symbol among the comparisons.
-/

namespace FieldSearch

inductive Operator
  | eq | like | unlike | ne | gt | lt | lte | gte | not
  deriving DecidableEq, Repr

/-- How the terms of a list hang together. -/
inductive Connective
  | and | or
  deriving DecidableEq, Repr

namespace Operator

/-- Every operator, in the order in which documents list them. -/
def all : List Operator :=
  [eq, like, unlike, ne, gt, lt, lte, gte, not]

/-- The name of an operator in documents. -/
def name : Operator → String
  | eq => "eq"
  | like => "like"
  | unlike => "unlike"
  | ne => "ne"
  | gt => "gt"
  | lt => "lt"
  | lte => "lte"
  | gte => "gte"
  | not => "not"

def ofName? (text : String) : Option Operator :=
  all.find? fun op => op.name == text

/-- The symbols of the comparisons, each before every symbol it begins with. -/
def symbols : List (List Char × Operator) :=
  [(['!', '~'], unlike), (['!', '='], ne), (['<', '>'], ne), (['>', '='], gte), (['<', '='], lte),
    (['=', '='], eq), (['='], eq), (['~'], like), (['>'], gt), (['<'], lt)]

/-- The comparison that a symbol stands for. -/
def ofSymbol? (symbol : String) : Option Operator :=
  symbols.lookup symbol.toList

/-- How messages show an operator. -/
def display : Operator → String
  | eq => "="
  | like => "~"
  | unlike => "!~"
  | ne => "!="
  | gt => ">"
  | lt => "<"
  | lte => "<="
  | gte => ">="
  | not => "not"

/-- The comparison in SQL. A negation is a condition around another and has no token. -/
def token? : Operator → Option String
  | eq => some "="
  | like => some "LIKE"
  | unlike => some "NOT LIKE"
  | ne => some "<>"
  | gt => some ">"
  | lt => some "<"
  | lte => some "<="
  | gte => some ">="
  | not => none

theorem exists_token {op : Operator} (hop : op ≠ .not) : ∃ token, op.token? = some token := by
  cases op <;> simp_all [token?]

/-- Whether the operator compares with a pattern. -/
def isPattern : Operator → Bool
  | like | unlike => true
  | _ => false

end Operator

namespace Connective

def all : List Connective :=
  [and, or]

def name : Connective → String
  | and => "and"
  | or => "or"

def ofName? (text : String) : Option Connective :=
  all.find? fun op => op.name == text

/-- What stands between two conditions of a list. -/
def separator : Connective → String
  | and => " AND "
  | or => " OR "

end Connective

end FieldSearch
