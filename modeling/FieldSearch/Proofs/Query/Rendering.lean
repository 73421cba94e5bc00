import FieldSearch.Proofs.Query.Kinds
import FieldSearch.Proofs.Query.Normal

/-! Writing trees as texts. A tree may be written in many ways: values bare or in marks of either
kind, comparisons by any of their symbols, negations by a mark or a word, connectives by a symbol, a
word or, in a conjunction, not at all, and every term with parentheses around it or without. Such a
text is cut where its pieces meet, as long as no word runs on behind it. -/

namespace FieldSearch

/-- The tree is a comparison without a field. -/
def Node.IsPrefixed (node : Node) : Prop :=
  ∃ op value, op ≠ .not ∧ node = .operator op [.leaf value]

namespace Query

/-- Gaps only, or nothing at all. -/
def IsSpace (s : List Char) : Prop :=
  ∀ c ∈ s, isGap c

theorem isSpace_nil : IsSpace [] :=
  nofun

theorem isSpace_space : IsSpace [' '] := by
  simp [IsSpace, isGap]

/-- The text with a backslash before each backslash and each mark. -/
def escape (mark : Char) : List Char → List Char
  | [] => []
  | c :: s => if c = mark ∨ c = '\\' then '\\' :: c :: escape mark s else c :: escape mark s

/-- The word in letters of either case. -/
def IsCaseless (word written : List Char) : Prop :=
  written.map Char.toLower = word

instance (word written : List Char) : Decidable (IsCaseless word written) :=
  inferInstanceAs (Decidable (_ = _))

/-- A value is written in marks, or bare if it is a word. -/
inductive WritesValue (value : String) : List Char → Prop
  | bare : value.toList ≠ [] → value.toList.all isWordChar →
      (∀ word ∈ [['a', 'n', 'd'], ['o', 'r'], ['n', 'o', 't']], ¬IsCaseless word value.toList) →
      WritesValue value value.toList
  | quoted {mark} : IsQuote mark → WritesValue value (mark :: escape mark value.toList ++ [mark])

/-- The symbol compares by the operator. -/
def WritesOperator (op : Operator) (symbol : List Char) : Prop :=
  Operator.ofSymbol? (String.ofList symbol) = some op

instance (op : Operator) (symbol : List Char) : Decidable (WritesOperator op symbol) :=
  inferInstanceAs (Decidable (_ = _))

/-- The symbols of a connective. -/
def connectiveSymbols : Connective → List (List Char)
  | .and => [['&'], ['&', '&']]
  | .or => [['|'], ['|', '|'], [',']]

/-- The connective is written by a symbol or by its name. -/
def WritesConnective (op : Connective) (written : List Char) : Prop :=
  written ∈ connectiveSymbols op ∨ IsCaseless op.name.toList written

/-- What stands at some place of a text: a term, a list of terms, or its operands behind the first.
-/
inductive Part
  | term (node : Node)
  | list (op : Connective) (node : Node)
  | further (op : Connective) (operands : List Node)

/-- Disjunctions have conjunctions for their members, and these have terms. -/
def Part.member : Connective → Node → Part
  | .and => term
  | .or => list .and

/-- The part of a tree is written like this. A list stands without parentheses only where it is not
operand of a negation, nor a disjunction among the operands of a conjunction. -/
inductive Renders : Part → List Char → Prop
  | leaf {value text} : WritesValue value text → Renders (.term (.leaf value)) text
  | prefixed {op value symbol gap text} : WritesOperator op symbol → IsSpace gap →
      WritesValue value text →
      Renders (.term (.operator op [.leaf value])) (symbol ++ (gap ++ text))
  | comparison {field op value written before symbol after text} : WritesValue field written →
      IsSpace before → WritesOperator op symbol → IsSpace after → WritesValue value text →
      Renders (.term (.comparison field op value))
        (written ++ (before ++ (symbol ++ (after ++ text))))
  -- a mark before one of these characters would begin a comparison
  | mark {operand gap text} : IsSpace gap → Renders (.term operand) text →
      (∀ c ∈ (gap ++ text).head?, c ≠ '=' ∧ c ≠ '~') →
      Renders (.term (.not operand)) ('!' :: (gap ++ text))
  | keyword {operand keyword gap text} : IsCaseless ['n', 'o', 't'] keyword → IsSpace gap →
      Renders (.term operand) text → gap ≠ [] ∨ text.head? = some '(' →
      Renders (.term (.not operand)) (keyword ++ (gap ++ text))
  | group {node before inner after} : IsSpace before → Renders (.list .or node) inner →
      IsSpace after → Renders (.term node) ('(' :: (before ++ (inner ++ (after ++ [')']))))
  | single {op node text} : Renders (.member op node) text → Renders (.list op node) text
  | several {op first operands text more} : operands ≠ [] → Renders (.member op first) text →
      Renders (.further op operands) more →
      Renders (.list op (.logical op (first :: operands))) (text ++ more)
  | last {op} : Renders (.further op []) []
  | connected {op before connective after operand operands text more} : IsSpace before →
      before ≠ [] → WritesConnective op connective → IsSpace after → after ≠ [] →
      Renders (.member op operand) text → Renders (.further op operands) more →
      Renders (.further op (operand :: operands))
        (before ++ (connective ++ (after ++ (text ++ more))))
  -- behind a value, a comparison without a field would take it for its field
  | juxtaposed {gap operand operands text more} : IsSpace gap → gap ≠ [] →
      Renders (.term operand) text → (operand.IsPrefixed → text.head? = some '(') →
      Renders (.further .and operands) more →
      Renders (.further .and (operand :: operands)) (gap ++ (text ++ more))

/-- The text renders the tree, perhaps with gaps around it. -/
def IsRendering (node : Node) (text : String) : Prop :=
  ∃ before inner after, text.toList = before ++ (inner ++ after) ∧ IsSpace before ∧
    Renders (.list .or node) inner ∧ IsSpace after

/-! ### Cutting

Where a piece of a text ends depends on what follows it, so pieces are cut with the text behind
them. -/

/-- The tokens are cut from the front of a text, up to where the rest begins. -/
def Cuts (s : List Char) (tokens : List Token) (rest : List Char) : Prop :=
  split (s ++ rest) = (tokens ++ (split rest).1, (split rest).2)

/-- No word runs on here. -/
def Stops (rest : List Char) : Prop :=
  ∀ c ∈ rest.head?, ¬isWordChar c

namespace Cuts

variable {s s' rest : List Char} {tokens tokens' : List Token}

theorem append (hfirst : Cuts s tokens (s' ++ rest)) (hsecond : Cuts s' tokens' rest) :
    Cuts (s ++ s') (tokens ++ tokens') rest := by
  unfold Cuts at *
  rw [List.append_assoc, hfirst, hsecond, List.append_assoc]

theorem space (hspace : IsSpace s) : Cuts s [] rest := by
  unfold Cuts
  rw [← split_skipGaps, skipGaps_of_gap hspace, split_skipGaps]
  rfl

theorem of_read {token : Token} (hread : Lexeme.token.read (s ++ rest) = some (token, rest)) :
    Cuts s [token] rest := by
  have hskip := Lexeme.skipGaps_of_token_read hread
  exact split_of_read (by rwa [hskip])

theorem space_append {gap : List Char} (hspace : IsSpace gap) (hcuts : Cuts s tokens rest) :
    Cuts (gap ++ s) tokens rest :=
  (space hspace).append hcuts

/-- A run of word characters is one token where it stops. -/
theorem run (hne : s ≠ []) (hword : ∀ c ∈ s, isWordChar c) (hstops : Stops rest) :
    Cuts s [.ofRun s] rest := by
  refine of_read (Lexeme.token_read_of_run (Lexeme.wordRun?_eq_some_iff.mpr ⟨rfl, hne, hword, ?_⟩))
  cases hhead : rest.head? with
  | none => simp
  | some c => simpa using hstops c hhead

theorem quoted {mark : Char} {inside : List Char} (hmark : IsQuote mark)
    (hinside : IsInside mark inside) :
    Cuts (mark :: inside ++ [mark]) [.value (.quoted mark inside)] rest :=
  of_read (Lexeme.token_read_of_quoted
    (Lexeme.quoted_read_eq_some_iff.mpr ⟨hmark, hinside, by simp⟩))

/-- A symbol is cut where no longer one could be. -/
theorem symbol {token : Token} (hmem : (s, token) ∈ Token.symbols)
    (halone : ∀ c ∈ rest.head?, ∀ entry ∈ Token.symbols, entry.1 ≠ s ++ [c]) :
    Cuts s [token] rest := by
  apply of_read
  apply Lexeme.token_read_of_symbol
  refine Lexeme.symbol_read_eq_some_iff.mpr ⟨s, hmem, rfl, fun entry hentry hfront => ?_⟩
  by_contra hlonger
  obtain ⟨more, hmore⟩ : s <+: entry.1 :=
    List.prefix_of_prefix_length_le (List.prefix_append s rest) hfront (by omega)
  have hshort : ∀ entry ∈ Token.symbols, 0 < entry.1.length ∧ entry.1.length ≤ 2 := by decide
  have hs := (hshort _ hmem).1
  have htwo := (hshort _ hentry).2
  rw [← hmore, List.length_append] at hlonger htwo
  obtain ⟨c, rfl⟩ : ∃ c, more = [c] := List.length_eq_one_iff.mp (by simp only at hs; omega)
  rw [← hmore, List.prefix_append_right_inj] at hfront
  obtain ⟨r, rfl⟩ := hfront
  exact halone c rfl entry hentry hmore.symm

/-- A symbol is cut before anything that stands in no symbol. -/
theorem symbol_before {token : Token} (hmem : (s, token) ∈ Token.symbols)
    (hnext : ∀ c ∈ rest.head?, isGap c ∨ isWordChar c ∨ IsQuote c) : Cuts s [token] rest := by
  have hchars : ∀ entry ∈ Token.symbols,
      entry.1.all fun c => !isGap c && !isWordChar c && c != '"' && c != '\x27' := by decide
  refine symbol hmem fun c hc entry hentry heq => ?_
  have hsymbol := List.all_eq_true.mp (hchars entry hentry) c (by simp [heq])
  have hother := hnext c hc
  simp_all [IsQuote]

/-- A symbol that no other symbol begins with is cut before anything. -/
theorem mark {c : Char} {token : Token} (hmem : ([c], token) ∈ Token.symbols)
    (honly : ∀ entry ∈ Token.symbols, entry.1.head? = some c → entry.1 = [c]) :
    Cuts [c] [token] rest := by
  refine symbol hmem fun d _ entry hentry heq => ?_
  have hsingle := honly entry hentry (by simp [heq])
  simp [hsingle] at heq

/-- A keyword is cut where it stops. -/
theorem keyword {word : List Char} {token : Token} (hkeyword : Token.keyword? word = some token)
    (hcaseless : IsCaseless word s) (hstops : Stops rest) : Cuts s [token] rest := by
  unfold IsCaseless at hcaseless
  subst hcaseless
  have hne : s ≠ [] := by
    rintro rfl
    cases hkeyword
  have hword : ∀ c ∈ s, isWordChar c := fun c hc =>
    Lexeme.isWordChar_of_toLower
      (Token.isWordChar_of_keyword? hkeyword _ (List.mem_map_of_mem hc))
  have hcuts := run hne hword hstops
  rwa [Token.ofRun, hkeyword] at hcuts

end Cuts

/-! ### Gaps -/

/-- Behind a gap there is the gap first. -/
theorem isGap_of_space {gap : List Char} (hspace : IsSpace gap) (hne : gap ≠ [])
    (rest : List Char) : ∀ c ∈ (gap ++ rest).head?, isGap c := by
  obtain ⟨c, gap, rfl⟩ := List.exists_cons_of_ne_nil hne
  simpa using hspace c (by simp)

theorem stops_of_gap {rest : List Char} (hnext : ∀ c ∈ rest.head?, isGap c) : Stops rest :=
  fun c hc => by simp [isWordChar, hnext c hc]

/-- A gap leaves open whether a word runs on, unless there is none. -/
theorem Stops.space {gap rest : List Char} (hspace : IsSpace gap) (hstops : Stops rest) :
    Stops (gap ++ rest) := by
  cases gap with
  | nil => exact hstops
  | cons c gap => exact stops_of_gap (isGap_of_space hspace (by simp) rest)

/-- The end of a text, a closing parenthesis. -/
theorem stops_nil : Stops [] :=
  nofun

theorem stops_closing (rest : List Char) : Stops (')' :: rest) := by
  simp [Stops, isWordChar, marks]

/-! ### Pieces -/

theorem isInside_escape (mark : Char) (s : List Char) : IsInside mark (escape mark s) := by
  induction s with
  | nil => exact .nil
  | cons c s ih =>
      unfold escape
      split
      · exact .escaped ih
      · exact .plain (by simp_all) (by simp_all) ih

/-- What is escaped is read as it was. -/
theorem unescape_escape {mark : Char} (hmark : IsQuote mark) (s : List Char) :
    Literal.unescape (escape mark s) = s := by
  induction s with
  | nil => rfl
  | cons c s ih =>
      unfold escape
      split
      next hescaped =>
          have hletter : c ≠ 'n' ∧ c ≠ 't' ∧ c ≠ 'r' := by
            rcases hmark with rfl | rfl <;> rcases hescaped with rfl | rfl <;> decide
          simp [Literal.unescape, hletter, ih]
      next hplain =>
          unfold Literal.unescape
          split <;> simp_all

/-- A value is one token that stands for it. -/
theorem WritesValue.exists_literal {value : String} {text : List Char}
    (hwrites : WritesValue value text) :
    ∃ literal : Literal, literal.text = value ∧
      ∀ rest, Stops rest → Cuts text [.value literal] rest := by
  cases hwrites with
  | bare hne hword hnone =>
      refine ⟨.word value.toList, by simp [Literal.text], fun rest hstops => ?_⟩
      have hcuts := Cuts.run hne (List.all_eq_true.mp hword) hstops
      rcases Token.ofRun_cases value.toList with ⟨hkeyword, -⟩ | ⟨-, hrun⟩
      · have hmem :
            value.toList.map Char.toLower ∈ [['a', 'n', 'd'], ['o', 'r'], ['n', 'o', 't']] := by
          rcases Token.keyword?_eq_some hkeyword with ⟨h, -⟩ | ⟨h, -⟩ | ⟨h, -⟩ <;> simp [h]
        exact absurd rfl (hnone _ hmem)
      · rwa [hrun] at hcuts
  | @quoted mark hmark =>
      refine ⟨.quoted mark (escape mark value.toList), ?_,
        fun rest _ => .quoted hmark (isInside_escape mark _)⟩
      simp [Literal.text, unescape_escape hmark]

theorem WritesValue.exists_cons {value : String} {text : List Char}
    (hwrites : WritesValue value text) : ∃ c s, text = c :: s ∧ (isWordChar c ∨ IsQuote c) := by
  cases hwrites with
  | bare hne hword =>
      obtain ⟨c, s, htext⟩ := List.exists_cons_of_ne_nil hne
      exact ⟨c, s, htext, .inl (List.all_eq_true.mp hword c (by simp [htext]))⟩
  | quoted hmark => exact ⟨_, _, rfl, .inr hmark⟩

theorem WritesOperator.mem_symbols {op : Operator} {symbol : List Char}
    (hwrites : WritesOperator op symbol) : (symbol, .comparator op) ∈ Token.symbols := by
  unfold WritesOperator Operator.ofSymbol? at hwrites
  rw [String.toList_ofList] at hwrites
  obtain ⟨before, after, hsymbols, -⟩ := List.lookup_eq_some_iff.mp hwrites
  have hmem : (symbol, op) ∈ Operator.symbols := by simp [hsymbols]
  exact List.mem_append_left _ (List.mem_map_of_mem hmem)

/-- The token of a connective. -/
def Token.ofConnective : Connective → Token
  | .and => .and
  | .or => .or

theorem WritesConnective.cuts {op : Connective} {written rest : List Char}
    (hwrites : WritesConnective op written) (hnext : ∀ c ∈ rest.head?, isGap c) :
    Cuts written [.ofConnective op] rest := by
  rcases hwrites with hsymbol | hcaseless
  · have hmem : ∀ chars ∈ connectiveSymbols op, (chars, Token.ofConnective op) ∈ Token.symbols := by
      cases op <;> decide
    exact .symbol_before (hmem written hsymbol) fun c hc => .inl (hnext c hc)
  · have hkeyword : Token.keyword? op.name.toList = some (.ofConnective op) := by
      cases op <;> decide
    exact .keyword hkeyword hcaseless (stops_of_gap hnext)

/-- The symbol of a comparison is cut before a value and the gap before it. -/
theorem WritesOperator.cuts {op : Operator} {symbol gap text rest : List Char} {value : String}
    (hwrites : WritesOperator op symbol) (hspace : IsSpace gap) (hvalue : WritesValue value text) :
    Cuts symbol [.comparator op] (gap ++ text ++ rest) := by
  refine .symbol_before hwrites.mem_symbols ?_
  obtain ⟨c, s, rfl, hc⟩ := hvalue.exists_cons
  cases gap with
  | nil => simpa using .inr hc
  | cons d gap => simpa using .inl (hspace d (by simp))

/-- The symbol of a comparison begins with no word character and no parenthesis. -/
theorem WritesOperator.exists_cons {op : Operator} {symbol : List Char}
    (hwrites : WritesOperator op symbol) :
    ∃ c s, symbol = c :: s ∧ ¬isWordChar c ∧ c ≠ '(' := by
  have hheads : ∀ entry ∈ Token.symbols, entry.2 = .opening ∨ entry.1.head? ≠ some '(' := by decide
  obtain ⟨c, s, rfl, -, hword, -⟩ := exists_cons_of_mem_symbols hwrites.mem_symbols
  have hhead := hheads _ hwrites.mem_symbols
  exact ⟨c, s, rfl, hword, by simpa using hhead⟩

theorem WritesOperator.ne_not {op : Operator} {symbol : List Char}
    (hwrites : WritesOperator op symbol) : op ≠ .not := by
  rintro rfl
  exact Spelled.ne_comparator_not (.symbol hwrites.mem_symbols) rfl

end Query

end FieldSearch
