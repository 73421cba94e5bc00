import FieldSearch.Query.Error
import FieldSearch.Query.Grammar
import FieldSearch.Text.Utf8

/-!
Reading a whole query: gaps, a disjunction if there is one, and the end of the text. Every rule of the
grammar can also be read on its own from the front of a text, which shows what it matches.
-/

namespace FieldSearch.Query

/-- The outcome of a rule that may match nothing at all: its value with the pairs it leaves, or
nothing. -/
structure Outcome (α : Type) where
  found : Option (α × List Pair)
  attempts : List Attempt

namespace Outcome

def ofReading {s : List Char} {α : Type} (reading : Reading s α) : Outcome Unit where
  found := reading.found.map fun found => ((), found.pairs)
  attempts := reading.attempts

/-- The text ends here. -/
def atEnd (s : List Char) : Outcome Unit where
  found := if s.isEmpty then some ((), [.matched .eoi 0 0 []]) else none
  attempts := [.tried .eoi s.length [] (!s.isEmpty)]

/-- A whole query; without a disjunction it is empty. -/
def query (s : List Char) : Outcome (Option Clause) :=
  let start := skipGaps s
  let reading := Grammar.disjunction start
  let (clause, pairs, rest) : Option Clause × List Pair × List Char :=
    match reading.found with
    | some found => (some found.value, found.pairs, skipGaps found.rest.chars)
    | none => (none, [], start)
  let ending := atEnd rest
  { found := ending.found.map fun (_, eoi) =>
      (clause, [.matched .query s.length 0 (pairs ++ eoi)])
    attempts :=
      [.tried .query s.length (reading.attempts ++ ending.attempts) ending.found.isNone] }

end Outcome

/-- What the inside of a literal in these marks takes from the front of a text, which may be
nothing. -/
def inside (mark : Char) (s : List Char) : Outcome Unit :=
  let rule := Grammar.insideRule mark
  { found := some ((), [.matched rule s.length (Lexeme.quotedRun mark s).2.length []])
    attempts := [.tried rule s.length [] false] }

namespace Rule

/-- What a rule takes from the front of a text. -/
def read (rule : Rule) (s : List Char) : Outcome Unit :=
  let lexeme (l : Lexeme Unit) : Outcome Unit :=
    .ofReading ((Reading.ofLexeme l s).named rule)
  match rule with
  | .eoi => .atEnd s
  | .query =>
    let outcome := Outcome.query s
    ⟨outcome.found.map fun (_, pairs) => ((), pairs), outcome.attempts⟩
  | .disjunction => .ofReading (Grammar.disjunction s)
  | .conjunction => .ofReading (Grammar.conjunction s)
  | .negation => .ofReading (Grammar.negation s)
  | .term => .ofReading (Grammar.term s)
  | .group => .ofReading (Grammar.group s)
  | .comparison => .ofReading (Grammar.comparison s)
  | .prefixComparison => .ofReading (Grammar.prefixComparison s)
  | .comparator => .ofReading (Grammar.comparator s)
  | .opAnd => lexeme .opAnd
  | .opOr => lexeme .opOr
  | .opNot => lexeme .opNot
  | .kwAnd => lexeme .kwAnd
  | .kwOr => lexeme .kwOr
  | .kwNot => lexeme .kwNot
  | .keyword => lexeme .anyKeyword
  | .value => .ofReading (Grammar.value s)
  | .quoted => .ofReading (Grammar.quoted s)
  | .dqInner => inside '"' s
  | .sqInner => inside '\x27' s
  | .escape => lexeme .escape
  | .word => .ofReading (Grammar.word s)
  | .wordChar => .ofReading (Reading.ofLexeme (.char isWordChar) s)
  | .whitespace => .ofReading (Reading.ofLexeme (.char isGap) s)

end Rule

/-- The pairs that a rule leaves at the front of a text. -/
def pairsOf (rule : Rule) (text : String) : Except Rejection (List Pair) :=
  let s := text.toList
  let outcome := rule.read s
  match outcome.found with
  | some (_, pairs) => .ok pairs
  | none => .error (.ofFailure s (.ofAttempts s.length outcome.attempts))

/-- The grammar tree of a query, if it has any terms. -/
def clauseOf (text : String) : Except Rejection (Option Clause) :=
  let s := text.toList
  let outcome := Outcome.query s
  match outcome.found with
  | some (clause, _) => .ok clause
  | none => .error (.ofFailure s (.ofAttempts s.length outcome.attempts))

/-- The tree of a query. -/
def parse (text : String) : Except QueryError Node :=
  match clauseOf text with
  | .error rejection => .error (.rejected rejection)
  | .ok none => .error .empty
  | .ok (some clause) => .ok clause.toNode

/-- How many bytes of the encoded text lie before the last `after` characters. -/
def byteOffset (text : List Char) (after : Nat) : Nat :=
  Text.utf8Length (text.take (text.length - after))

/-- What stands before, in and behind a stretch of bytes of the encoded text. -/
def stretchOfBytes (text : String) (start stop : Nat) :
    Option (List Char × List Char × List Char) :=
  if start ≤ stop then do
    let (before, rest) ← Text.splitAtByte start text.toList
    let (stretch, rest) ← Text.splitAtByte (stop - start) rest
    return (before, stretch, rest)
  else none

end FieldSearch.Query
