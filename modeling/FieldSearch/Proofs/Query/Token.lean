import FieldSearch.Query.Clause
import FieldSearch.Query.Lexeme
import Mathlib.Data.List.Infix

/-! Tokens of the query language. A text is cut into the longest tokens, with gaps skipped between
them: literals in quotes, symbols, and runs of word characters, of which a few are keywords. Which
token stands at the front of a text is stated here without a way to find it. -/

namespace FieldSearch.Query

inductive Token
  | value (literal : Literal)
  | comparator (op : Operator)
  | and | or | not
  | opening | closing
  deriving DecidableEq, Repr

namespace Token

/-- The symbols that compare nothing. -/
def marks : List (List Char × Token) :=
  [(['!'], not), (['&', '&'], and), (['&'], and), (['|', '|'], or), (['|'], or), ([','], or),
    (['('], opening), ([')'], closing)]

/-- All symbols, each before every symbol it begins with. -/
def symbols : List (List Char × Token) :=
  Operator.symbols.map (Prod.map id comparator) ++ marks

theorem symbols_sorted : symbols.Pairwise fun entry later => ¬entry.1 <+: later.1 := by
  decide

theorem marks_sorted : marks.Pairwise fun entry later => ¬entry.1 <+: later.1 :=
  (List.pairwise_append.mp symbols_sorted).2.1

/-- The keywords, in small letters. -/
def keyword? : List Char → Option Token
  | ['a', 'n', 'd'] => some and
  | ['o', 'r'] => some or
  | ['n', 'o', 't'] => some not
  | _ => none

/-- A run of word characters is a word, unless it is a keyword in letters of either case. -/
def ofRun (run : List Char) : Token :=
  (keyword? (run.map Char.toLower)).getD (value (.word run))

end Token

/-- The marks that stand around literals. -/
def IsQuote (mark : Char) : Prop :=
  mark = '"' ∨ mark = '\x27'

/-- The inside of a literal: a backslash takes the next character with it, and the mark stands only
behind a backslash. -/
inductive IsInside (mark : Char) : List Char → Prop
  | nil : IsInside mark []
  | plain {c run} : c ≠ mark → c ≠ '\\' → IsInside mark run → IsInside mark (c :: run)
  | escaped {c run} : IsInside mark run → IsInside mark ('\\' :: c :: run)

/-- The token is written like this. -/
inductive Spelled : Token → List Char → Prop
  | symbol {token chars} : (chars, token) ∈ Token.symbols → Spelled token chars
  | run {chars} : chars ≠ [] → (∀ c ∈ chars, isWordChar c) → Spelled (.ofRun chars) chars
  | quoted {mark inside} : IsQuote mark → IsInside mark inside →
      Spelled (.value (.quoted mark inside)) (mark :: inside ++ [mark])

/-- The token stands at the front of a text and is the longest one there. -/
def TokenAt (s : List Char) (token : Token) (rest : List Char) : Prop :=
  ∃ written, s = written ++ rest ∧ Spelled token written ∧
    ∀ other longer, longer <+: s → Spelled other longer → longer.length ≤ written.length

/-- The text is cut into the tokens, with nothing but gaps between and around them. -/
inductive Splits : List Char → List Token → Prop
  | nil {gap} : (∀ c ∈ gap, isGap c) → Splits gap []
  | cons {gap s token rest tokens} : (∀ c ∈ gap, isGap c) → TokenAt s token rest →
      Splits rest tokens → Splits (gap ++ s) (token :: tokens)

/-! ### First characters

The first character tells symbols, words and literals apart. -/

theorem IsQuote.ne_backslash {mark : Char} (hmark : IsQuote mark) : mark ≠ '\\' := by
  rcases hmark with rfl | rfl <;> decide

theorem IsQuote.not_isWordChar {c : Char} (hquote : IsQuote c) : ¬isWordChar c := by
  rcases hquote with rfl | rfl <;> decide

/-- A symbol begins neither like a word nor like a literal, and with no gap. -/
theorem exists_cons_of_mem_symbols {chars : List Char} {token : Token}
    (hmem : (chars, token) ∈ Token.symbols) :
    ∃ c rest, chars = c :: rest ∧ ¬isGap c ∧ ¬isWordChar c ∧ ¬IsQuote c := by
  have hheads : ∀ entry ∈ Token.symbols,
      entry.1.head?.any fun c => !isGap c && !isWordChar c && c != '"' && c != '\x27' := by decide
  have hhead := hheads _ hmem
  cases chars with
  | nil => cases hhead
  | cons c rest =>
      refine ⟨c, rest, rfl, ?_⟩
      simp_all [IsQuote]

/-- Tokens that begin with the same character are of one kind. -/
theorem Spelled.kind_of_front {c : Char} {s chars : List Char} {t : Token}
    (hspelled : Spelled t chars) (hfront : chars <+: c :: s) :
    (¬isGap c ∧ ¬isWordChar c ∧ ¬IsQuote c ∧ (chars, t) ∈ Token.symbols) ∨
    (isWordChar c ∧ (∀ d ∈ chars, isWordChar d) ∧ chars ≠ [] ∧ t = .ofRun chars) ∨
    (IsQuote c ∧ ∃ inside, IsInside c inside ∧ chars = c :: inside ++ [c] ∧
      t = .value (.quoted c inside)) := by
  obtain ⟨r, hr⟩ := hfront
  cases hspelled with
  | symbol hmem =>
      obtain ⟨d, rest, rfl, hgap, hword, hquote⟩ := exists_cons_of_mem_symbols hmem
      obtain ⟨rfl, -⟩ := List.cons.inj hr
      exact .inl ⟨hgap, hword, hquote, hmem⟩
  | run hne hword =>
      obtain ⟨d, rest, rfl⟩ := List.exists_cons_of_ne_nil hne
      obtain ⟨rfl, -⟩ := List.cons.inj hr
      exact .inr (.inl ⟨hword d (by simp), hword, hne, rfl⟩)
  | quoted hmark hinside =>
      obtain ⟨rfl, -⟩ := List.cons.inj hr
      exact .inr (.inr ⟨hmark, _, hinside, rfl, rfl⟩)

end FieldSearch.Query
