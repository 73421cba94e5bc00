import FieldSearch.Query.Attempt
import FieldSearch.Query.Lexeme

/-!
The outcome of reading one rule from the front of a text: what was found, if anything, and every
attempt on the way. Attempts never influence what is found.
-/

namespace FieldSearch.Query

/-- A rule that matched, between two places, with the rules that matched inside it. Places are given
by the number of characters after them. -/
inductive Pair
  | matched (rule : Rule) (start stop : Nat) (inner : List Pair)
  deriving Repr

structure Found (s : List Char) (α : Type) where
  value : α
  pairs : List Pair
  rest : Rest s

structure Reading (s : List Char) (α : Type) where
  found : Option (Found s α)
  attempts : List Attempt

namespace Found

def map {s : List Char} {α β : Type} (f : α → β) (found : Found s α) : Found s β :=
  ⟨f found.value, found.pairs, found.rest⟩

/-- What follows, once gaps are skipped. -/
def next {s : List Char} {α : Type} (found : Found s α) : List Char :=
  skipGaps found.rest.chars

theorem length_next_lt {s : List Char} {α : Type} (found : Found s α) :
    found.next.length < s.length :=
  Nat.lt_of_le_of_lt (length_skipGaps_le _) found.rest.shorter

end Found

namespace Reading

variable {s : List Char} {α β : Type}

def map (f : α → β) (reading : Reading s α) : Reading s β :=
  ⟨reading.found.map (Found.map f), reading.attempts⟩

/-- The reading as one rule of the grammar: one pair around what was found, and one attempt. -/
def named (rule : Rule) (reading : Reading s α) : Reading s α where
  found := reading.found.map fun found =>
    { found with pairs := [.matched rule s.length found.rest.chars.length found.pairs] }
  attempts := [.tried rule s.length reading.attempts reading.found.isNone]

/-- A lexeme, which leaves no trace of its own. -/
def ofLexeme (lexeme : Lexeme α) (s : List Char) : Reading s α where
  found := (lexeme.at? s).map fun (value, rest) => ⟨value, [], rest⟩
  attempts := []

/-- The first alternative that finds something. -/
def either (first second : Reading s α) : Reading s α :=
  match first.found with
  | some found => ⟨some found, first.attempts⟩
  | none => ⟨second.found, first.attempts ++ second.attempts⟩

/-- One reading, then another after the gap. -/
def andThen (first : Reading s α)
    (second : α → (t : List Char) → t.length < s.length → Reading t β) : Reading s β :=
  match first.found with
  | none => ⟨none, first.attempts⟩
  | some found =>
    let following := second found.value found.next found.length_next_lt
    { found := following.found.map fun f =>
        ⟨f.value, found.pairs ++ f.pairs, f.rest.within (Nat.le_of_lt found.length_next_lt)⟩
      attempts := first.attempts ++ following.attempts }

end Reading

end FieldSearch.Query
