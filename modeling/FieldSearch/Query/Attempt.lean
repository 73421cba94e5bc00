import FieldSearch.Query.Rule

/-!
What was tried while a query was read, and what to say when nothing fitted. An attempt stands at a
place, which is given by the number of characters after it. A failure is blamed on the farthest place
where an attempt failed; the rules named are those tried there, and a rule stands for the attempts
inside it unless it made exactly one of them, which then stands for the rule.
-/

namespace FieldSearch.Query

inductive Attempt
  | tried (rule : Rule) (after : Nat) (inner : List Attempt) (failed : Bool)
  deriving Repr

/-- The farthest place of failure so far, and the rules that failed there. -/
structure Failure where
  after : Nat
  rules : List Rule
  deriving DecidableEq, Repr

namespace Failure

/-- Nothing has failed yet in a text of `length` characters. -/
def start (length : Nat) : Failure :=
  ⟨length, []⟩

/-- How many rules are known to have failed at a place. -/
def countAt (failure : Failure) (after : Nat) : Nat :=
  if after = failure.after then failure.rules.length else 0

/-- `rule` failed at a place at which `before` rules had failed when it began. -/
def blame (rule : Rule) (after before : Nat) (failure : Failure) : Failure :=
  if failure.countAt after = before + 1 then failure
  else if after = failure.after then ⟨after, failure.rules.take before ++ [rule]⟩
  else if after < failure.after then ⟨after, [rule]⟩
  else failure

end Failure

mutual

def Attempt.record : Attempt → Failure → Failure
  | .tried rule after inner failed, failure =>
    let reached := Attempt.recordAll inner failure
    if failed then reached.blame rule after (failure.countAt after) else reached

def Attempt.recordAll : List Attempt → Failure → Failure
  | [], failure => failure
  | attempt :: attempts, failure => Attempt.recordAll attempts (attempt.record failure)

end

namespace Failure

/-- The failure that these attempts at a text of `length` characters amount to. -/
def ofAttempts (length : Nat) (attempts : List Attempt) : Failure :=
  Attempt.recordAll attempts (start length)

/-- The rules that failed, each once, in the order of the grammar. -/
def expected (failure : Failure) : List Rule :=
  Rule.all.filter fun rule => failure.rules.contains rule

end Failure

end FieldSearch.Query
