import FieldSearch.Condition.Compile
import Mathlib.Data.List.Forall2

/-! The rules of compilation. What a tree compiles to, if it compiles, is told by one rule for each
form of tree, without the look-ups, the depth of negations and the tests dropped on the way: a
condition, if anything is left to test, and the values for its placeholders. `Compile.Run` shows
that the compiler follows these rules, so that what holds of every compiled tree is an induction
over them. -/

namespace FieldSearch

/-- What stands on the right is paired with something on the left. -/
theorem exists_mem_of_forall₂ {α β : Type} {R : α → β → Prop} {xs : List α} {ys : List β}
    (hpairs : List.Forall₂ R xs ys) {y : β} (hy : y ∈ ys) : ∃ x ∈ xs, R x y := by
  induction hpairs with
  | nil => cases hy
  | cons hhead _ ih =>
      rcases List.mem_cons.mp hy with rfl | htail
      · exact ⟨_, by simp, hhead⟩
      · obtain ⟨x, hx, hrest⟩ := ih htail
        exact ⟨x, by simp [hx], hrest⟩

/-- A condition, if anything is left to test, and the values for its placeholders. -/
structure Yield where
  condition : Option Condition
  bound : List BindValue

namespace Yield

/-- Nothing is tested and nothing bound. -/
def nothing : Yield :=
  ⟨none, []⟩

/-- The list of what is left to test, with every value that was bound. -/
def join (op : Connective) (yields : List Yield) : Yield :=
  ⟨Condition.join op (yields.map condition), yields.flatMap bound⟩

end Yield

namespace Field

/-- The value that a test of the field binds, unless the test is dropped. -/
def boundValue? (field : Field) (zone : Calendar.Zone) (op : Operator) (value : String) :
    Option BindValue :=
  if op.isPattern && !hasWildcard value then some (.string (asPattern value))
  else if field.type.isTemporal then field.readTemporal zone value
  else some (.string value)

/-- What the test of the field with a comparison yields. -/
def yield (field : Field) (zone : Calendar.Zone) (token : String) (op : Operator) (value : String) :
    Yield :=
  match field.boundValue? zone op value with
  | some bound => ⟨some (.test field.columnSql token), [bound]⟩
  | none => .nothing

end Field

/-- The tests of fields with a value, each by the operator for its field. -/
inductive TestsTo (zone : Calendar.Zone) (op : Field → Operator) (value : String) :
    List Field → List Yield → Prop
  | nil : TestsTo zone op value [] []
  | cons {field fields token yields} : (op field).token? = some token →
      TestsTo zone op value fields yields →
      TestsTo zone op value (field :: fields) (field.yield zone token (op field) value :: yields)

/-- Each test is the test of one of the fields. -/
theorem TestsTo.exists_of_mem {zone : Calendar.Zone} {op : Field → Operator} {value : String}
    {fields : List Field} {yields : List Yield} (htests : TestsTo zone op value fields yields)
    {yield : Yield} (hyield : yield ∈ yields) :
    ∃ field ∈ fields, ∃ token, (op field).token? = some token ∧
      yield = field.yield zone token (op field) value := by
  induction htests with
  | nil => cases hyield
  | cons htoken _ ih =>
      rcases List.mem_cons.mp hyield with rfl | htail
      · exact ⟨_, by simp, _, htoken, rfl⟩
      · obtain ⟨field, hfield, hrest⟩ := ih htail
        exact ⟨field, by simp [hfield], hrest⟩

/-- What a tree compiles to. -/
inductive Node.CompilesTo (definition : Definition) : Node → Yield → Prop
  | keyword {value yields} : definition.defaultFields value none ≠ [] →
      TestsTo definition.zone Field.defaultOperator value (definition.defaultFields value none)
        yields →
      CompilesTo definition (.leaf value) (.join .or yields)
  | prefixed {op value yields} : op ≠ .not → definition.defaultFields value (some op) ≠ [] →
      TestsTo definition.zone (fun _ => op) value (definition.defaultFields value (some op))
        yields →
      CompilesTo definition (.operator op [.leaf value]) (.join .or yields)
  | named {op name field token value} : definition.field? name = some field →
      op.token? = some token →
      CompilesTo definition (.operator op [.leaf name, .leaf value])
        (field.yield definition.zone token op value)
  | negation {operand condition bound} : CompilesTo definition operand ⟨some condition, bound⟩ →
      CompilesTo definition (.operator .not [operand])
        ⟨some (.negation condition condition), bound ++ bound⟩
  | droppedNegation {operand bound} : CompilesTo definition operand ⟨none, bound⟩ →
      CompilesTo definition (.operator .not [operand]) ⟨none, bound⟩
  | logical {op operands yields} : operands ≠ [] →
      List.Forall₂ (CompilesTo definition) operands yields →
      CompilesTo definition (.logical op operands) (.join op yields)

/-- An induction over the rules, in which a list of operands comes with the property of each. -/
@[elab_as_elim]
theorem Node.CompilesTo.induction {definition : Definition} {motive : Node → Yield → Prop}
    (keyword : ∀ {value yields}, definition.defaultFields value none ≠ [] →
      TestsTo definition.zone Field.defaultOperator value (definition.defaultFields value none)
        yields →
      motive (.leaf value) (.join .or yields))
    (prefixed : ∀ {op value yields}, op ≠ .not → definition.defaultFields value (some op) ≠ [] →
      TestsTo definition.zone (fun _ => op) value (definition.defaultFields value (some op))
        yields →
      motive (.operator op [.leaf value]) (.join .or yields))
    (named : ∀ {op name field token value}, definition.field? name = some field →
      op.token? = some token →
      motive (.operator op [.leaf name, .leaf value]) (field.yield definition.zone token op value))
    (negation : ∀ {operand condition bound}, motive operand ⟨some condition, bound⟩ →
      motive (.operator .not [operand])
        ⟨some (.negation condition condition), bound ++ bound⟩)
    (droppedNegation : ∀ {operand bound}, motive operand ⟨none, bound⟩ →
      motive (.operator .not [operand]) ⟨none, bound⟩)
    (logical : ∀ {op operands yields}, operands ≠ [] → List.Forall₂ motive operands yields →
      motive (.logical op operands) (.join op yields))
    {node : Node} {yield : Yield} (compiles : node.CompilesTo definition yield) :
    motive node yield := by
  induction node using Node.induction generalizing yield with
  | leaf value =>
      cases compiles with
      | keyword some tests => exact keyword some tests
  | operator op operands ih =>
      cases compiles with
      | prefixed ne some tests => exact prefixed ne some tests
      | named found comparison => exact named found comparison
      | negation inner => exact negation (ih _ (by simp) inner)
      | droppedNegation inner => exact droppedNegation (ih _ (by simp) inner)
  | logical op operands ih =>
      cases compiles with
      | logical some members =>
          apply logical some
          clear some
          induction members with
          | nil => exact .nil
          | cons head _ tail =>
              exact .cons (ih _ (by simp) head) (tail fun operand mem => ih operand (by simp [mem]))

end FieldSearch
