import FieldSearch.Query.Operator

/-!
Conditions in SQL. A condition is a test of a column against a placeholder, a list of conditions in
parentheses, or a negation, which also holds where the tested columns are null. Every list has at least
one member, and a list of one has no connective.
-/

namespace FieldSearch

inductive Condition
  | test (column token : String)
  | single (inner : Condition)
  | list (op : Connective) (first second : Condition) (rest : List Condition)
  | negation (negated nullCheck : Condition)
  deriving Repr

mutual

/-- The text of a condition. -/
def Condition.sql : Condition → String
  | .test column token => column ++ " " ++ token ++ " ?"
  | .single inner => "(" ++ inner.sql ++ ")"
  | .list op first second rest =>
    "(" ++ first.sql ++ op.separator ++ second.sql ++ Condition.sqlAfter op rest ++ ")"
  | .negation negated nullCheck =>
    "(NOT(" ++ negated.sql ++ ") OR " ++ nullCheck.sql ++ " IS NULL)"

/-- Further members of a list, each behind a separator. -/
def Condition.sqlAfter (op : Connective) : List Condition → String
  | [] => ""
  | condition :: conditions =>
    op.separator ++ condition.sql ++ Condition.sqlAfter op conditions

end

namespace Condition

/-- The list of the conditions that are there, if any is. -/
def join (op : Connective) (conditions : List (Option Condition)) : Option Condition :=
  match conditions.filterMap id with
  | [] => none
  | [only] => some (.single only)
  | first :: second :: rest => some (.list op first second rest)

end Condition

/-- The text of a condition, or nothing where there is nothing to test. -/
abbrev Fragment : Type :=
  Option String

namespace Fragment

/-- The fragments that are there, with a separator between them and parentheses around them. -/
def join (fragments : List Fragment) (separator : String) : Fragment :=
  match fragments.filterMap id with
  | [] => none
  | parts => some ("(" ++ separator.intercalate parts ++ ")")

/-- The first of several parts, and each of the others behind a separator. -/
theorem intercalate_cons (separator first : String) (rest : List String) :
    separator.intercalate (first :: rest)
      = first ++ String.join (rest.map fun part => separator ++ part) := by
  induction rest generalizing first with
  | nil => simp
  | cons second rest ih => simp [ih, String.append_assoc]

end Fragment

namespace Condition

theorem sqlAfter_eq_join (op : Connective) (conditions : List Condition) :
    sqlAfter op conditions
      = String.join (conditions.map fun condition => op.separator ++ condition.sql) := by
  induction conditions with
  | nil => simp [sqlAfter]
  | cons condition conditions ih => simp [sqlAfter, ih]

/-- The text of a list is its members joined, so trees and texts may be put together alike. -/
theorem map_sql_join (op : Connective) (conditions : List (Option Condition)) :
    (join op conditions).map sql = Fragment.join (conditions.map (·.map sql)) op.separator := by
  have h : (conditions.map (·.map sql)).filterMap id = (conditions.filterMap id).map sql := by
    induction conditions with
    | nil => rfl
    | cons condition conditions ih => cases condition <;> simp_all
  unfold join Fragment.join
  rw [h]
  match conditions.filterMap id with
  | [] => rfl
  | [only] => simp [sql]
  | first :: second :: rest =>
    simp [sql, sqlAfter_eq_join, Fragment.intercalate_cons, String.append_assoc,
      Function.comp_def]

end Condition

end FieldSearch
