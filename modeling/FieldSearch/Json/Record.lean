import FieldSearch.Json.Value

/-!
Records in documents: an object with known keys, in any order and each at most once, or an array of
the values in a fixed order, from which the last ones may be missing. Other keys of an object are
passed over.
-/

namespace FieldSearch.Json

variable {α σ : Type} {n : Nat}

/-- The reader for a key that may stand once, given what was read for it before. -/
def once (key : String) (before : Option α) (reader : Reader α) (set : α → σ) :
    Except Fault (ReaderBelow n σ) :=
  if before.isSome then .error (.data (.repeatedKey key))
  else .ok fun t _ => (reader t).map fun (a, rest) => (set a, rest)

/-- The reader for a key that means nothing. -/
def passOver (state : σ) : Except Fault (ReaderBelow n σ) :=
  .ok fun t _ => (readIgnored t).map fun (_, rest) => (state, rest)

/-- The reader for a value at a fixed position. -/
def inPlace (reader : Reader α) (set : σ → α → σ) : σ → Reader σ := fun state t =>
  (reader t).map fun (a, rest) => (set state a, rest)

/-- The bracket that closes an array. -/
def closed (s : List Char) : Except Fault (Rest s) :=
  mark ']' s

/-- Values at fixed positions behind a value, up to the bracket that closes the array. -/
def moreInOrder : List (σ → Reader σ) → σ → (s : List Char) → Except Fault (σ × Rest s)
  | [], state, s => (closed s).map fun rest => (state, rest)
  | step :: steps, state, s =>
    match next? s with
    | none => .error .truncated
    | some (c, rest) =>
      if c = ']' then .ok (state, rest)
      else if c = ',' then
        match next? rest.chars with
        | none => .error .truncated
        | some (d, _) =>
          if d = ']' then .error .malformed
          else
            match afterBlanks (step state) rest.chars with
            | .error fault => .error fault
            | .ok (next, following) =>
              match moreInOrder steps next following.chars with
              | .error fault => .error fault
              | .ok (final, last) => .ok (final, rest.after (following.after last))
      else .error .malformed

/-- Values at fixed positions, behind the bracket that opens the array. -/
def inOrder : List (σ → Reader σ) → σ → (s : List Char) → Except Fault (σ × Rest s)
  | [], state, s => (closed s).map fun rest => (state, rest)
  | step :: steps, state, s =>
    match next? s with
    | none => .error .truncated
    | some (c, rest) =>
      if c = ']' then .ok (state, rest)
      else
        match afterBlanks (step state) s with
        | .error fault => .error fault
        | .ok (next, following) =>
          match moreInOrder steps next following.chars with
          | .error fault => .error fault
          | .ok (final, last) => .ok (final, following.after last)

/-- A kind of record: what is collected while one is read, and what it amounts to. -/
structure RecordOf (σ α : Type) where
  expected : String
  empty : σ
  key : {n : Nat} → σ → String → Except Fault (ReaderBelow n σ)
  steps : List (σ → Reader σ)
  /-- The record, or the first key that is missing with its position. -/
  finish : σ → Except (String × Nat) α

namespace RecordOf

def read (kind : RecordOf σ α) : Reader α := fun s =>
  match s with
  | [] => .error .truncated
  | c :: r =>
    if c = '\x7b' then
      match members (n := (c :: r).length) (.keep 0) kind.key kind.empty r (length_lt_cons c r) with
      | .error fault => .error fault
      | .ok (state, rest) =>
        match kind.finish state with
        | .error (key, _) => .error (.data (.missingKey key))
        | .ok a => .ok (a, rest.behind)
    else if c = '[' then
      match inOrder kind.steps kind.empty r with
      | .error fault => .error fault
      | .ok (state, rest) =>
        match kind.finish state with
        | .error (_, position) =>
          let count := kind.steps.length
          .error (.data (.wrongLength position (kind.expected ++ s!" with {count} elements")))
        | .ok a => .ok (a, rest.behind)
    else .error (unexpected kind.expected (c :: r))

end RecordOf

end FieldSearch.Json
