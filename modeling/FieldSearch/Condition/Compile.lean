import FieldSearch.Condition.Basic
import FieldSearch.Condition.Compilation
import FieldSearch.Condition.Registry
import FieldSearch.Query.Node

/-!
Compiling query trees to conditions. A term with a field name tests that field, a term without one
tests its default fields. A test of a temporal field with a value that cannot be read is dropped, and
with it every list and negation that has nothing left. A negation compiles its operand twice and binds
its values twice, so negations may not be nested too deep.
-/

namespace FieldSearch

/-- Whether a pattern says itself where anything may stand. -/
def hasWildcard (value : String) : Bool :=
  value.toList.head? == some '%' || value.toList.getLast? == some '%'

/-- The value of a pattern, with anything before and behind it unless the pattern says otherwise. -/
def asPattern (value : String) : String :=
  "%" ++ value ++ "%"

namespace Registry

/-- The test of one field, or nothing if it is dropped. -/
def test (registry : Registry) (field : Field) (op : Operator) (value : String) :
    Compilation (Option Condition) :=
  match op.token? with
  | none => .fail (.notAComparison op)
  | some token => do
    let condition := Condition.test field.columnSql token
    if op.isPattern && !hasWildcard value then
      Compilation.push (.string (asPattern value))
      return some condition
    else if field.type.isTemporal then
      match field.readTemporal registry.zone value with
      | some moment =>
        Compilation.push moment
        return some condition
      | none =>
        Compilation.drop ⟨field.name, field.type, value⟩
        return none
    else
      Compilation.push (.string value)
      return some condition

/-- The tests of several fields with a value, each with the operator for its field. -/
def testAll (registry : Registry) (op : Field → Operator) (value : String) :
    List Field → Compilation (List (Option Condition))
  | [] => return []
  | field :: fields => do
    let first ← registry.test field (op field) value
    let others ← registry.testAll op value fields
    return first :: others

/-- A value that is looked for in its default fields. -/
def testDefaults (registry : Registry) (given : Option Operator) (op : Field → Operator)
    (value : String) : Compilation (Option Condition) := do
  let fields ← Compilation.lookup fun n => registry.defaultFields n value given
  if fields.isEmpty then
    Compilation.fail (.unresolvedField value)
  else
    let tests ← registry.testAll op value fields
    return Condition.join .or tests

/-- A value that is looked for in one field. -/
def testNamed (registry : Registry) (name : String) (op : Operator) (value : String) :
    Compilation (Option Condition) := do
  match ← Compilation.lookup fun n => registry.field? n name with
  | none => Compilation.fail (.unknownField name)
  | some field => registry.test field op value

/-- `op value` -/
def comparePrefixed (registry : Registry) (op : Operator) (value : Node) :
    Compilation (Option Condition) :=
  match value.leafValue? with
  | none => .fail .valueNotLeaf
  | some text => registry.testDefaults (some op) (fun _ => op) text

/-- `field op value` -/
def compareNamed (registry : Registry) (op : Operator) (field value : Node) :
    Compilation (Option Condition) :=
  match field.leafValue? with
  | none => .fail .fieldNotLeaf
  | some name =>
    match value.leafValue? with
    | none => .fail .valueNotLeaf
    | some text => registry.testNamed name op text

end Registry

/-- The negation of what compiles twice to a condition. -/
def Condition.negate (compile : Compilation (Option Condition)) : Compilation (Option Condition) := do
  match ← compile with
  | none => return none
  | some negated =>
    match ← compile with
    | none => return none
    | some nullCheck => return some (.negation negated nullCheck)

mutual

/-- Compiles a tree inside a number of negations. -/
def Node.compile (registry : Registry) (depth : Nat) : Node → Compilation (Option Condition)
  | .leaf value => registry.testDefaults none Field.defaultOperator value
  | .operator .not [operand] =>
    if negationLimit ≤ depth then .fail .negationTooDeep
    else Condition.negate (operand.compile registry (depth + 1))
  | .operator .not operands => .fail (.malformedOperator .not operands.length)
  | .operator op [value] => registry.comparePrefixed op value
  | .operator op [field, value] => registry.compareNamed op field value
  | .operator op operands => .fail (.malformedOperator op operands.length)
  | .logical op [] => .fail (.emptyLogicalOperator op)
  | .logical op (first :: rest) => do
    let condition ← first.compile registry depth
    let conditions ← Node.compileAll registry depth rest
    return Condition.join op (condition :: conditions)

/-- Compiles one tree after another. -/
def Node.compileAll (registry : Registry) (depth : Nat) :
    List Node → Compilation (List (Option Condition))
  | [] => return []
  | node :: nodes => do
    let condition ← node.compile registry depth
    let conditions ← Node.compileAll registry depth nodes
    return condition :: conditions

end

end FieldSearch
