import FieldSearch.Query.Error
import FieldSearch.Query.Operator

/-!
Why a query cannot be compiled. Some causes lie in what was searched for, others in a tree that no
query text yields.
-/

namespace FieldSearch

/-- How many negations may stand inside one another. -/
def negationLimit : Nat :=
  8

inductive CompileError
  | fieldNotLeaf
  | valueNotLeaf
  | malformedOperator (op : Operator) (arity : Nat)
  | emptyLogicalOperator (op : Connective)
  | notAComparison (op : Operator)
  | negationTooDeep
  | unknownField (name : String)
  | unresolvedField (value : String)
  deriving DecidableEq, Repr

namespace CompileError

def message : CompileError → String
  | fieldNotLeaf => "Field name not a leaf node"
  | valueNotLeaf => "Value not a leaf node"
  | malformedOperator op arity =>
    "Don't know how to handle operator '" ++ op.display ++ s!"' with {arity} operand(s)"
  | emptyLogicalOperator op => "Logical operator '" ++ op.name ++ "' has no operands"
  | notAComparison op => "'" ++ op.display ++ "' is not a comparison operator"
  | negationTooDeep => s!"Negations nested deeper than {negationLimit} levels"
  | unknownField name => s!"Field '{name}' not recognized for searching"
  | unresolvedField value => s!"No field can be searched for '{value}'"

/-- Whether the cause lies in the query itself. -/
def isUserError : CompileError → Bool
  | negationTooDeep | unknownField _ | unresolvedField _ => true
  | _ => false

end CompileError

/-- Why a text cannot be searched for. -/
inductive SearchError
  | query (error : Query.QueryError)
  | compile (error : CompileError)
  deriving DecidableEq, Repr

namespace SearchError

def message : SearchError → String
  | query error => error.display
  | compile error => error.message

def isUserError : SearchError → Bool
  | query _ => true
  | compile error => error.isUserError

end SearchError

end FieldSearch
