import FieldSearch.Query.Clause
import FieldSearch.Query.Reading

/-!
The grammar of queries. A disjunction joins conjunctions, a conjunction joins negations with or
without a connective between them, and a negation ends in a term: a group, a comparison, a comparison
without a field, or a value. Alternatives are tried in the order written here, the first that fits is
taken, and lists take as many members as they can.
-/

namespace FieldSearch.Query

namespace Grammar

def comparator (s : List Char) : Reading s Operator :=
  (Reading.ofLexeme .comparator s).named .comparator

def opAnd (s : List Char) : Reading s Unit :=
  (Reading.ofLexeme .opAnd s).named .opAnd

def opOr (s : List Char) : Reading s Unit :=
  (Reading.ofLexeme .opOr s).named .opOr

def opNot (s : List Char) : Reading s Unit :=
  (Reading.ofLexeme .opNot s).named .opNot

def word (s : List Char) : Reading s Literal :=
  ((Reading.ofLexeme .word s).named .word).map .word

/-- The rule for the inside of a literal in these marks. -/
def insideRule (mark : Char) : Rule :=
  if mark = '"' then .dqInner else .sqInner

/-- A literal in quotes. The inside is a rule of its own, which never fails. -/
def quoted (s : List Char) : Reading s Literal :=
  let bare : Reading s (Char × List Char) := .ofLexeme .quoted s
  Reading.named .quoted
    { found := bare.found.map fun found =>
        { value := .quoted found.value.1 found.value.2
          pairs := [.matched (insideRule found.value.1) (s.length - 1)
            (found.rest.chars.length + 1) []]
          rest := found.rest }
      attempts := [] }

def value (s : List Char) : Reading s Literal :=
  (quoted s).either (word s)

/-- `field op value` -/
def comparison (s : List Char) : Reading s Clause :=
  Reading.named .comparison <|
    (value s).andThen fun field t _ =>
      (comparator t).andThen fun op u _ =>
        (value u).map fun literal => .comparison field op literal

/-- `op value` -/
def prefixComparison (s : List Char) : Reading s Clause :=
  Reading.named .prefixComparison <|
    (comparator s).andThen fun op t _ => (value t).map fun literal => .prefixed op literal

/-- Further members of a list, from a place that ends the list if there are none. -/
structure Tail (s : List Char) where
  members : List Clause
  pairs : List Pair
  rest : List Char
  le : rest.length ≤ s.length
  attempts : List Attempt

namespace Tail

def nothing (s : List Char) (attempts : List Attempt) : Tail s :=
  ⟨[], [], s, Nat.le_refl _, attempts⟩

/-- One more member, between what was read and what follows it. -/
def cons {s t : List Char} (member : Found t Clause) (le : t.length ≤ s.length)
    (before : List Pair) (attempts : List Attempt) (tail : Tail member.rest.chars) : Tail s where
  members := member.value :: tail.members
  pairs := before ++ member.pairs ++ tail.pairs
  rest := tail.rest
  le := by
    have := member.rest.shorter
    have := tail.le
    omega
  attempts := attempts ++ tail.attempts

end Tail

/-- A list with its first member and the further ones, which may take the gap before them even if
there are none. -/
def listOf {s : List Char} (op : Connective) (first : Found s Clause) (attempts : List Attempt)
    (tail : Tail first.next) : Reading s Clause where
  found := some
    { value := .list op first.value tail.members
      pairs := first.pairs ++ tail.pairs
      rest := ⟨tail.rest, Nat.lt_of_le_of_lt tail.le first.length_next_lt⟩ }
  attempts := attempts ++ tail.attempts

mutual

def disjunction (s : List Char) : Reading s Clause :=
  Reading.named .disjunction <|
    match conjunction s with
    | ⟨none, attempts⟩ => ⟨none, attempts⟩
    | ⟨some first, attempts⟩ =>
      have := first.length_next_lt
      listOf .or first attempts (alternatives first.next)
termination_by 6 * s.length + 5

/-- Further conjunctions, each after a connective. -/
def alternatives (s : List Char) : Tail s :=
  have hs := length_skipGaps_le s
  match opOr (skipGaps s) with
  | ⟨none, attempts⟩ => .nothing s attempts
  | ⟨some op, attempts⟩ =>
    have hop := op.length_next_lt
    match conjunction op.next with
    | ⟨none, more⟩ => .nothing s (attempts ++ more)
    | ⟨some member, more⟩ =>
      have hm := member.rest.shorter
      .cons member (by omega) op.pairs (attempts ++ more) (alternatives member.rest.chars)
termination_by 6 * s.length + 4

def conjunction (s : List Char) : Reading s Clause :=
  Reading.named .conjunction <|
    match negation s with
    | ⟨none, attempts⟩ => ⟨none, attempts⟩
    | ⟨some first, attempts⟩ =>
      have := first.length_next_lt
      listOf .and first attempts (conditions first.next)
termination_by 6 * s.length + 4

/-- Further negations, each after a connective or right away. -/
def conditions (s : List Char) : Tail s :=
  have hs := length_skipGaps_le s
  match opAnd (skipGaps s) with
  | ⟨none, attempts⟩ =>
    match negation (skipGaps s) with
    | ⟨none, more⟩ => .nothing s (attempts ++ more)
    | ⟨some member, more⟩ =>
      have hm := member.rest.shorter
      .cons member hs [] (attempts ++ more) (conditions member.rest.chars)
  | ⟨some op, attempts⟩ =>
    have hop := op.length_next_lt
    match negation op.next with
    | ⟨none, more⟩ => .nothing s (attempts ++ more)
    | ⟨some member, more⟩ =>
      have hm := member.rest.shorter
      .cons member (by omega) op.pairs (attempts ++ more) (conditions member.rest.chars)
termination_by 6 * s.length + 3

def negation (s : List Char) : Reading s Clause :=
  Reading.named .negation <|
    match opNot s with
    | ⟨some op, attempts⟩ =>
      have hop := op.length_next_lt
      match negation op.next with
      | ⟨some operand, more⟩ =>
        { found := some
            { value := .negation operand.value
              pairs := op.pairs ++ operand.pairs
              rest := operand.rest.within (Nat.le_of_lt hop) }
          attempts := attempts ++ more }
      | ⟨none, more⟩ =>
        let alternative := term s
        ⟨alternative.found, attempts ++ more ++ alternative.attempts⟩
    | ⟨none, attempts⟩ =>
      let alternative := term s
      ⟨alternative.found, attempts ++ alternative.attempts⟩
termination_by 6 * s.length + 2

/-- What a negation ends in. -/
def term (s : List Char) : Reading s Clause :=
  (group s).either <| (comparison s).either <| (prefixComparison s).either <| (value s).map .value
termination_by 6 * s.length + 1

def group (s : List Char) : Reading s Clause :=
  Reading.named .group <|
    (Reading.ofLexeme (.text ['(']) s).andThen fun _ t _ =>
      (disjunction t).andThen fun inner u _ =>
        (Reading.ofLexeme (.text [')']) u).map fun _ => .group inner
termination_by 6 * s.length

end

end Grammar

end FieldSearch.Query
