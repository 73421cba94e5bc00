import FieldSearch.Condition.Error
import FieldSearch.Field.Basic

/-!
Steps of a compilation. A step yields a result or an error, and leaves behind the values it bound, the
tests it dropped and the number of look-ups it made, also when it fails. What was left behind before
has no influence on a step; it only knows how many look-ups came before its own.
-/

namespace FieldSearch

/-- A comparison with a temporal field whose value is no date or time. -/
structure DroppedTest where
  field : String
  type : FieldType
  value : String
  deriving DecidableEq, Repr

structure Trace where
  bound : List BindValue := []
  dropped : List DroppedTest := []
  lookups : Nat := 0
  deriving DecidableEq, Repr

namespace Trace

/-- One trace behind another. -/
def append (first second : Trace) : Trace :=
  ⟨first.bound ++ second.bound, first.dropped ++ second.dropped, first.lookups + second.lookups⟩

instance : Append Trace :=
  ⟨append⟩

@[simp]
theorem bound_append (first second : Trace) :
    (first ++ second).bound = first.bound ++ second.bound :=
  rfl

@[simp]
theorem dropped_append (first second : Trace) :
    (first ++ second).dropped = first.dropped ++ second.dropped :=
  rfl

@[simp]
theorem lookups_append (first second : Trace) :
    (first ++ second).lookups = first.lookups + second.lookups :=
  rfl

end Trace

/-- A step, given the number of look-ups made before it. -/
def Compilation (α : Type) : Type :=
  Nat → Except CompileError α × Trace

namespace Compilation

variable {α β : Type}

def pure (a : α) : Compilation α :=
  fun _ => (.ok a, {})

def fail (error : CompileError) : Compilation α :=
  fun _ => (.error error, {})

/-- One step after another, unless the first one fails. -/
def bind (first : Compilation α) (next : α → Compilation β) : Compilation β := fun lookups =>
  match first lookups with
  | (.error error, trace) => (.error error, trace)
  | (.ok a, trace) =>
    let (result, more) := next a (lookups + trace.lookups)
    (result, trace ++ more)

theorem bind_of_error {first : Compilation α} {next : α → Compilation β} {lookups : Nat}
    {error : CompileError} {trace : Trace} (h : first lookups = (.error error, trace)) :
    bind first next lookups = (.error error, trace) := by
  simp [bind, h]

theorem bind_of_ok {first : Compilation α} {next : α → Compilation β} {lookups : Nat} {a : α}
    {trace : Trace} (h : first lookups = (.ok a, trace)) :
    bind first next lookups
      = ((next a (lookups + trace.lookups)).1, trace ++ (next a (lookups + trace.lookups)).2) := by
  simp [bind, h]

instance : Monad Compilation where
  pure := pure
  bind := bind

/-- Binds a value to the next placeholder. -/
def push (value : BindValue) : Compilation Unit :=
  fun _ => (.ok (), { bound := [value] })

/-- Takes note of a test that is dropped. -/
def drop (test : DroppedTest) : Compilation Unit :=
  fun _ => (.ok (), { dropped := [test] })

/-- A look-up, which depends on how many came before it. -/
def lookup (answer : Nat → α) : Compilation α :=
  fun lookups => (.ok (answer lookups), { lookups := 1 })

end Compilation

end FieldSearch
