import FieldSearch.Query.Operator
import FieldSearch.Text.Rest

/-!
The smallest pieces of a query: symbols, keywords, words and quoted literals. Nothing is skipped
inside a lexeme. Every lexeme takes at least one character, which its type records.
-/

namespace FieldSearch.Query

/-- The characters that may stand between two lexemes. -/
def isGap (c : Char) : Bool :=
  c == ' ' || c == '\t' || c == '\r' || c == '\n'

def skipGaps (s : List Char) : List Char :=
  s.dropWhile isGap

theorem length_skipGaps_le (s : List Char) : (skipGaps s).length ≤ s.length :=
  length_dropWhile_le isGap s

/-- The characters with a meaning of their own, which end a word. -/
def marks : List Char :=
  ['(', ')', '&', '|', ',', '=', '!', '<', '>', '~', '"', '\x27']

def isWordChar (c : Char) : Bool :=
  !isGap c && !marks.contains c

/-- A way to read one piece from the front of a text. -/
structure Lexeme (α : Type) where
  read : List Char → Option (α × List Char)
  shorter : ∀ {s : List Char} {a : α} {r : List Char}, read s = some (a, r) → r.length < s.length

namespace Lexeme

/-- What is read from the front of `s`, with the rest. -/
def at? {α : Type} (lexeme : Lexeme α) (s : List Char) : Option (α × Rest s) :=
  match h : lexeme.read s with
  | none => none
  | some (a, r) => some (a, ⟨r, lexeme.shorter h⟩)

/-- What follows `text` at the front of `s`. -/
def afterText : List Char → List Char → Option (List Char)
  | [], s => some s
  | _ :: _, [] => none
  | t :: ts, c :: s => if c = t then afterText ts s else none

/-- What follows `text` at the front of `s`, where `s` may have its ASCII letters in either case. -/
def afterCaseless : List Char → List Char → Option (List Char)
  | [], s => some s
  | _ :: _, [] => none
  | t :: ts, c :: s => if c.toLower = t then afterCaseless ts s else none

theorem length_afterText {text s r : List Char} (h : afterText text s = some r) :
    s.length = text.length + r.length := by
  induction text generalizing s with
  | nil => simp_all [afterText]
  | cons t ts ih =>
    cases s with
    | nil => simp [afterText] at h
    | cons c s =>
      simp only [afterText] at h
      split at h
      · have := ih h
        simp only [List.length_cons]
        omega
      · simp at h

theorem length_afterCaseless {text s r : List Char} (h : afterCaseless text s = some r) :
    s.length = text.length + r.length := by
  induction text generalizing s with
  | nil => simp_all [afterCaseless]
  | cons t ts ih =>
    cases s with
    | nil => simp [afterCaseless] at h
    | cons c s =>
      simp only [afterCaseless] at h
      split at h
      · have := ih h
        simp only [List.length_cons]
        omega
      · simp at h

/-- Exactly this text. -/
def text (chars : List Char) (ne : chars ≠ [] := by decide) : Lexeme Unit where
  read s := (afterText chars s).map fun r => ((), r)
  shorter h := by
    obtain ⟨r, hr, he⟩ := Option.map_eq_some_iff.1 h
    have hl := length_afterText hr
    have := List.length_pos_iff.2 ne
    cases he
    omega

/-- The first of two that can be read. -/
def either {α : Type} (first second : Lexeme α) : Lexeme α where
  read s := (first.read s).or (second.read s)
  shorter {s _ _} h := by
    cases hf : first.read s with
    | none =>
      rw [hf] at h
      exact second.shorter h
    | some x =>
      rw [hf] at h
      have : x = _ := Option.some.inj h
      subst this
      exact first.shorter hf

/-- A lexeme that is refused when one of these characters follows it. -/
def notBefore {α : Type} (lexeme : Lexeme α) (stop : Char → Bool) : Lexeme α where
  read s := (lexeme.read s).filter fun (_, r) => !r.head?.any stop
  shorter h := lexeme.shorter (Option.filter_eq_some_iff.1 h).1

/-- A word with a meaning, in any case, as a whole word. -/
def keyword (chars : List Char) (ne : chars ≠ [] := by decide) : Lexeme Unit :=
  notBefore
    { read := fun s => (afterCaseless chars s).map fun r => ((), r)
      shorter := fun h => by
        obtain ⟨r, hr, he⟩ := Option.map_eq_some_iff.1 h
        have hl := length_afterCaseless hr
        have := List.length_pos_iff.2 ne
        cases he
        omega }
    isWordChar

def kwAnd : Lexeme Unit :=
  keyword ['a', 'n', 'd']

def kwOr : Lexeme Unit :=
  keyword ['o', 'r']

def kwNot : Lexeme Unit :=
  keyword ['n', 'o', 't']

def anyKeyword : Lexeme Unit :=
  either kwAnd (either kwOr kwNot)

def opAnd : Lexeme Unit :=
  either (text ['&', '&']) (either (text ['&']) kwAnd)

def opOr : Lexeme Unit :=
  either (text ['|', '|']) (either (text ['|']) (either (text [',']) kwOr))

/-- A negation. `!=` and `!~` are comparisons, so a mark that begins one of them is no negation. -/
def opNot : Lexeme Unit :=
  either (notBefore (text ['!']) fun c => c == '=' || c == '~') kwNot

def comparatorIn : List (List Char × Operator) → List Char → Option (Operator × List Char)
  | [], _ => none
  | (symbol, op) :: more, s =>
    match afterText symbol s with
    | some r => some (op, r)
    | none => comparatorIn more s

theorem comparatorIn_shorter {symbols : List (List Char × Operator)}
    (ne : ∀ entry ∈ symbols, entry.1 ≠ []) {s : List Char} {op : Operator} {r : List Char}
    (h : comparatorIn symbols s = some (op, r)) : r.length < s.length := by
  induction symbols with
  | nil => simp [comparatorIn] at h
  | cons entry more ih =>
    obtain ⟨symbol, op'⟩ := entry
    simp only [comparatorIn] at h
    split at h
    · next r' hr =>
      have hl := length_afterText hr
      have := List.length_pos_iff.2 (ne (symbol, op') (by simp))
      simp only [Option.some.injEq, Prod.mk.injEq] at h
      obtain ⟨rfl, rfl⟩ := h
      simp only at this
      omega
    · exact ih (fun e he => ne e (by simp [he])) h

/-- A comparison, by the longest symbol. -/
def comparator : Lexeme Operator where
  read := comparatorIn Operator.symbols
  shorter := comparatorIn_shorter (by decide)

/-- A run of word characters, as long as it goes on. -/
def wordRun? : List Char → Option (List Char × List Char)
  | [] => none
  | c :: r =>
    if isWordChar c then some (c :: r.takeWhile isWordChar, r.dropWhile isWordChar) else none

theorem length_wordRun?_lt {s run r : List Char} (h : wordRun? s = some (run, r)) :
    r.length < s.length := by
  cases s with
  | nil => simp [wordRun?] at h
  | cons c t =>
    simp only [wordRun?] at h
    split at h
    · have := length_dropWhile_le isWordChar t
      simp only [Option.some.injEq, Prod.mk.injEq] at h
      obtain ⟨-, rfl⟩ := h
      simp only [List.length_cons]
      omega
    · simp at h

/-- A run of word characters that is not a keyword. -/
def word : Lexeme (List Char) where
  read s := if (anyKeyword.read s).isSome then none else wordRun? s
  shorter h := by
    split at h
    · simp at h
    · exact length_wordRun?_lt h

/-- The inside of a quoted literal: up to the enclosing mark or a backslash that ends the text. A
backslash takes the next character with it. -/
def quotedRun (mark : Char) : List Char → List Char × List Char
  | [] => ([], [])
  | ['\\'] => ([], ['\\'])
  | '\\' :: c :: r =>
    let (run, rest) := quotedRun mark r
    ('\\' :: c :: run, rest)
  | c :: r =>
    if c = mark then ([], c :: r)
    else
      let (run, rest) := quotedRun mark r
      (c :: run, rest)

theorem length_quotedRun_le (mark : Char) (s : List Char) :
    (quotedRun mark s).2.length ≤ s.length := by
  fun_induction quotedRun mark s with
  | case1 => simp
  | case2 => simp
  | case3 c r run rest h ih => simp_all; omega
  | case4 r => simp
  | case5 c r _ _ _ run rest h ih => simp_all; omega

/-- A backslash with the character it takes with it. -/
def escape : Lexeme Unit where
  read s :=
    match s with
    | '\\' :: _ :: r => some ((), r)
    | _ => none
  shorter {s _ _} h := by
    split at h
    · simp only [Option.some.injEq, Prod.mk.injEq] at h
      obtain ⟨-, rfl⟩ := h
      simp only [List.length_cons]
      omega
    · simp at h

/-- A literal in a pair of equal marks: the mark, and the inside as written. -/
def quoted : Lexeme (Char × List Char) where
  read s :=
    match s with
    | [] => none
    | mark :: r =>
      if mark = '"' ∨ mark = '\x27' then
        match quotedRun mark r with
        | (run, c :: rest) => if c = mark then some ((mark, run), rest) else none
        | (_, []) => none
      else none
  shorter {s _ _} h := by
    cases s with
    | nil => simp at h
    | cons mark r =>
      have hl := length_quotedRun_le mark r
      simp only at h
      split at h
      · split at h
        · next run c rest hq =>
          split at h
          · rw [hq] at hl
            simp only [Option.some.injEq, Prod.mk.injEq] at h
            obtain ⟨-, rfl⟩ := h
            simp only [List.length_cons] at hl ⊢
            omega
          · simp at h
        · simp at h
      · simp at h

/-- One character that satisfies `p`. -/
def char (p : Char → Bool) : Lexeme Unit where
  read s :=
    match s with
    | [] => none
    | c :: r => if p c then some ((), r) else none
  shorter {s _ _} h := by
    cases s with
    | nil => simp at h
    | cons c r =>
      simp only at h
      split at h
      · simp only [Option.some.injEq, Prod.mk.injEq] at h
        obtain ⟨-, rfl⟩ := h
        simp
      · simp at h

end Lexeme

end FieldSearch.Query
