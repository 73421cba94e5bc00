import FieldSearch.Condition.Basic
import FieldSearch.Field.BindValue

/-! Truth in SQL, where a comparison with nothing to compare is neither true nor false. A condition
is evaluated from the left with a list of values, of which each placeholder takes the next one; what
a test says of a row, given its value, is left to an oracle. -/

namespace FieldSearch

/-- A truth value of SQL. -/
inductive Truth
  | no | unknown | yes
  deriving DecidableEq, Repr

namespace Truth

def not : Truth → Truth
  | no => yes
  | unknown => unknown
  | yes => no

def and : Truth → Truth → Truth
  | no, _ | _, no => no
  | yes, yes => yes
  | _, _ => unknown

def or : Truth → Truth → Truth
  | yes, _ | _, yes => yes
  | no, no => no
  | _, _ => unknown

/-- `IS NULL`, which always knows. -/
def isNull : Truth → Truth
  | unknown => yes
  | _ => no

@[simp]
theorem and_eq_yes {a b : Truth} : a.and b = yes ↔ a = yes ∧ b = yes := by
  cases a <;> cases b <;> decide

@[simp]
theorem or_eq_yes {a b : Truth} : a.or b = yes ↔ a = yes ∨ b = yes := by
  cases a <;> cases b <;> decide

/-- `NOT(x) OR x IS NULL` is true of all that `x` is not true of. -/
theorem not_or_isNull {a : Truth} : a.not.or a.isNull = yes ↔ a ≠ yes := by
  cases a <;> decide

end Truth

/-- The connective between truth values. -/
def Connective.truth : Connective → Truth → Truth → Truth
  | and => Truth.and
  | or => Truth.or

/-- Whether all, or some, of several answers are yes. -/
def Connective.answer : Connective → List Bool → Bool
  | and, answers => answers.all id
  | or, answers => answers.any id

namespace Connective

variable (op : Connective) (a : Bool) (answers more : List Bool)

theorem answer_singleton : op.answer [a] = a := by
  cases op <;> simp [answer]

theorem answer_cons : op.answer (a :: answers) = op.answer [a, op.answer answers] := by
  cases op <;> simp [answer]

theorem answer_append :
    op.answer (answers ++ more) = op.answer [op.answer answers, op.answer more] := by
  cases op <;> simp [answer]

end Connective

/-- What the test of a column with a token says of a row, given the value for its placeholder. -/
abbrev Oracle : Type :=
  String → String → BindValue → Truth

mutual

/-- The truth of a condition, with the values that its placeholders leave over; nothing if there are
too few. -/
def Condition.eval? (oracle : Oracle) :
    Condition → List BindValue → Option (Truth × List BindValue)
  | .test _ _, [] => none
  | .test column token, value :: values => some (oracle column token value, values)
  | .single inner, values => inner.eval? oracle values
  | .list op first second rest, values => do
    let (a, values) ← first.eval? oracle values
    let (b, values) ← second.eval? oracle values
    Condition.evalAfter? oracle op (op.truth a b) rest values
  | .negation negated nullCheck, values => do
    let (a, values) ← negated.eval? oracle values
    let (b, values) ← nullCheck.eval? oracle values
    return (a.not.or b.isNull, values)

/-- The truth of a list, given that of its members so far. -/
def Condition.evalAfter? (oracle : Oracle) (op : Connective) (before : Truth) :
    List Condition → List BindValue → Option (Truth × List BindValue)
  | [], values => some (before, values)
  | condition :: conditions, values => do
    let (a, values) ← condition.eval? oracle values
    Condition.evalAfter? oracle op (op.truth before a) conditions values

end

end FieldSearch
