import FieldSearch.Query.Operator
import FieldSearch.Text.Quoted

/-!
The tree of a query. A comparison is an operator with a field name and a value, or with a value
alone, which is then looked for in the default fields; a negation is the operator `not`. The type
also holds trees that no query text yields, since trees may come from documents.
-/

namespace FieldSearch

inductive Node
  | leaf (value : String)
  | operator (op : Operator) (operands : List Node)
  | logical (op : Connective) (operands : List Node)
  deriving Repr

namespace Node

/-- `field op value` -/
def comparison (field : String) (op : Operator) (value : String) : Node :=
  operator op [leaf field, leaf value]

def not (operand : Node) : Node :=
  operator .not [operand]

def leafValue? : Node → Option String
  | leaf value => some value
  | _ => none

/-- The field side of a comparison with two operands. -/
def left? : List Node → Option Node
  | [left, _] => some left
  | _ => none

/-- The value side, the last operand. -/
def right? (operands : List Node) : Option Node :=
  operands.getLast?

/-- The operands that a list with this connective takes over from one of its own: those of a nested
list with the same connective, or the operand itself. -/
def spliced (op : Connective) : Node → List Node
  | logical inner operands => if inner = op then operands else [logical inner operands]
  | other => [other]

/-- A list of at least one operand. Nested lists with the same connective become part of it, and a
single operand stands for itself. -/
def join (op : Connective) (operands : List Node) : Node :=
  match operands.flatMap (spliced op) with
  | [single] => single
  | several => logical op several

end Node

mutual

/-- Whether two trees are equal. -/
def Node.decideEq : (first second : Node) → Decidable (first = second)
  | .leaf v, .leaf w => decidable_of_iff (v = w) (by simp)
  | .operator op xs, .operator op' ys =>
    have := Node.decideEqAll xs ys
    decidable_of_iff (op = op' ∧ xs = ys) (by simp)
  | .logical op xs, .logical op' ys =>
    have := Node.decideEqAll xs ys
    decidable_of_iff (op = op' ∧ xs = ys) (by simp)
  | .leaf _, .operator .. | .leaf _, .logical .. | .operator .., .leaf _
  | .operator .., .logical .. | .logical .., .leaf _ | .logical .., .operator .. =>
    isFalse (by simp)

def Node.decideEqAll : (first second : List Node) → Decidable (first = second)
  | [], [] => isTrue rfl
  | [], _ :: _ | _ :: _, [] => isFalse (by simp)
  | x :: xs, y :: ys =>
    have := Node.decideEq x y
    have := Node.decideEqAll xs ys
    decidable_of_iff (x = y ∧ xs = ys) (by simp)

end

instance : DecidableEq Node :=
  Node.decideEq

/-- Trees are built from leaves, so what carries over from operands to trees holds of every tree. -/
@[elab_as_elim]
theorem Node.induction {motive : Node → Prop}
    (leaf : ∀ value, motive (.leaf value))
    (operator : ∀ op operands, (∀ operand ∈ operands, motive operand) →
      motive (.operator op operands))
    (logical : ∀ op operands, (∀ operand ∈ operands, motive operand) →
      motive (.logical op operands))
    (node : Node) : motive node :=
  @Node.rec motive (fun nodes => ∀ node ∈ nodes, motive node) leaf operator logical (by simp)
    (fun _ _ head tail => by simpa using ⟨head, tail⟩) node

/-- The constructor names that a described tree shows. -/
private def shownOperator : Operator → String
  | .eq => "Eq"
  | .like => "Like"
  | .unlike => "Unlike"
  | .ne => "Ne"
  | .gt => "Gt"
  | .lt => "Lt"
  | .lte => "Lte"
  | .gte => "Gte"
  | .not => "Not"

private def shownConnective : Connective → String
  | .and => "And"
  | .or => "Or"

mutual

/-- The tree on one line, as the log shows it. -/
def Node.describe : Node → String
  | .leaf value => "Leaf(LeafNode \x7b value: " ++ Text.quoted value ++ " \x7d)"
  | .operator op operands =>
    "Operator(OperatorNode \x7b operator: " ++ shownOperator op ++ ", children: ["
      ++ ", ".intercalate (Node.describeAll operands) ++ "] \x7d)"
  | .logical op operands =>
    "LogicalOperator(LogicalOperatorNode \x7b operator: " ++ shownConnective op ++ ", children: ["
      ++ ", ".intercalate (Node.describeAll operands) ++ "] \x7d)"

def Node.describeAll : List Node → List String
  | [] => []
  | node :: nodes => node.describe :: Node.describeAll nodes

end

end FieldSearch
