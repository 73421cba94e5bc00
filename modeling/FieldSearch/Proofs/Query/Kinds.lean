import FieldSearch.Proofs.Query.Scan

/-! Kinds of tokens. Every lexeme that the grammar reads is one kind of token: it is found where the
token at the front of the text is of that kind, and leaves the same behind. A mark before `=` or `~`
is thereby no negation, and a keyword never a word. -/

namespace FieldSearch.Query

namespace Token

def comparator? : Token → Option Operator
  | comparator op => some op
  | _ => none

def word? : Token → Option (List Char)
  | value (.word chars) => some chars
  | _ => none

def quoted? : Token → Option (Char × List Char)
  | value (.quoted mark inside) => some (mark, inside)
  | _ => none

/-- Whether it is this token. -/
def exactly (wanted : Token) : Token → Option Unit
  | token => if token = wanted then some () else none

@[simp]
theorem exactly_eq_some_iff {wanted token : Token} :
    wanted.exactly token = some () ↔ token = wanted := by
  simp [exactly]

theorem keyword?_eq_some {chars : List Char} {token : Token}
    (hkeyword : keyword? chars = some token) :
    chars = ['a', 'n', 'd'] ∧ token = and ∨ chars = ['o', 'r'] ∧ token = or ∨
      chars = ['n', 'o', 't'] ∧ token = not := by
  unfold keyword? at hkeyword
  split at hkeyword <;> simp_all

theorem keyword?_inj {chars chars' : List Char} {token : Token}
    (hkeyword : keyword? chars = some token) (hkeyword' : keyword? chars' = some token) :
    chars = chars' := by
  rcases keyword?_eq_some hkeyword with ⟨rfl, rfl⟩ | ⟨rfl, rfl⟩ | ⟨rfl, rfl⟩ <;>
    rcases keyword?_eq_some hkeyword' with ⟨rfl, h⟩ | ⟨rfl, h⟩ | ⟨rfl, h⟩ <;> simp_all

theorem keyword?_ne_value (chars : List Char) (literal : Literal) :
    keyword? chars ≠ some (value literal) := by
  intro hkeyword
  rcases keyword?_eq_some hkeyword with ⟨-, ⟨⟩⟩ | ⟨-, ⟨⟩⟩ | ⟨-, ⟨⟩⟩

theorem isWordChar_of_keyword? {chars : List Char} {token : Token}
    (hkeyword : keyword? chars = some token) : ∀ c ∈ chars, isWordChar c := by
  rw [← List.all_eq_true]
  rcases keyword?_eq_some hkeyword with ⟨rfl, -⟩ | ⟨rfl, -⟩ | ⟨rfl, -⟩ <;> decide

/-- A run is a keyword, or a word that is none. -/
theorem ofRun_cases (run : List Char) :
    keyword? (run.map Char.toLower) = some (ofRun run) ∧ ofRun run ∈ [and, or, not] ∨
    keyword? (run.map Char.toLower) = none ∧ ofRun run = value (.word run) := by
  unfold ofRun
  cases hkeyword : keyword? (run.map Char.toLower) with
  | none => exact .inr ⟨rfl, rfl⟩
  | some token =>
      refine .inl ⟨rfl, ?_⟩
      rcases keyword?_eq_some hkeyword with ⟨-, rfl⟩ | ⟨-, rfl⟩ | ⟨-, rfl⟩ <;> simp

/-- What is true of no keyword and of no word is true of no run. -/
theorem ofRun_ne {β : Type} {kind : Token → Option β} {b : β}
    (hkeyword : ∀ token ∈ [and, or, not], kind token ≠ some b)
    (hword : ∀ chars, kind (value (.word chars)) ≠ some b) (run : List Char) :
    kind (ofRun run) ≠ some b := by
  rcases ofRun_cases run with ⟨-, hrun⟩ | ⟨-, hrun⟩
  · exact hkeyword _ hrun
  · rw [hrun]
    exact hword run

end Token

namespace Lexeme

variable {α : Type}

/-- The lexeme reads the tokens of a kind. -/
def Reads (lexeme : Lexeme α) (kind : Token → Option α) : Prop :=
  ∀ s a r, lexeme.read s = some (a, r) ↔ ∃ t, token.read s = some (t, r) ∧ kind t = some a

theorem Reads.read_eq {lexeme : Lexeme α} {kind : Token → Option α} (hreads : lexeme.Reads kind)
    {s r : List Char} {t : Token} (htoken : token.read s = some (t, r)) :
    lexeme.read s = (kind t).map fun a => (a, r) := by
  refine Option.ext fun ⟨a, r'⟩ => (hreads s a r').trans ?_
  rw [htoken]
  constructor
  · rintro ⟨t, ⟨⟩, hkind⟩
    rw [hkind]
    rfl
  · intro hkind
    obtain ⟨a', hkind', ⟨⟩⟩ := Option.map_eq_some_iff.mp hkind
    exact ⟨t, rfl, hkind'⟩

theorem Reads.read_eq_none {lexeme : Lexeme α} {kind : Token → Option α}
    (hreads : lexeme.Reads kind) {s : List Char} (htoken : token.read s = none) :
    lexeme.read s = none := by
  rw [Option.eq_none_iff_forall_ne_some]
  rintro ⟨a, r⟩ hread
  obtain ⟨t, hsome, -⟩ := (hreads s a r).mp hread
  rw [htoken] at hsome
  cases hsome

/-! ### Comparators and literals -/

theorem symbol_read_eq_some_iff {s r : List Char} {t : Token} :
    symbol.read s = some (t, r) ↔
      ∃ chars, (chars, t) ∈ Token.symbols ∧ s = chars ++ r ∧
        ∀ entry ∈ Token.symbols, entry.1 <+: s → entry.1.length ≤ chars.length :=
  symbolIn_eq_some_iff Token.symbols_sorted

theorem symbolIn_append (first second : List (List Char × Token)) (s : List Char) :
    symbolIn (first ++ second) s = (symbolIn first s).or (symbolIn second s) := by
  induction first with
  | nil => rfl
  | cons entry first ih =>
      rw [List.cons_append, symbolIn, symbolIn]
      cases afterText entry.1 s with
      | none => exact ih
      | some r => rfl

theorem symbolIn_comparators (table : List (List Char × Operator)) (s : List Char) :
    symbolIn (table.map (Prod.map id .comparator)) s =
      (comparatorIn table s).map (Prod.map .comparator id) := by
  induction table with
  | nil => rfl
  | cons entry table ih =>
      rw [List.map_cons, symbolIn, comparatorIn]
      dsimp only [Prod.map_fst, Prod.map_snd, id_eq]
      cases afterText entry.1 s with
      | none => exact ih
      | some r => rfl

theorem symbol_read_eq (s : List Char) :
    symbol.read s = ((comparator.read s).map (Prod.map .comparator id)).or
      (symbolIn Token.marks s) :=
  calc symbol.read s
    _ = (symbolIn (Operator.symbols.map (Prod.map id .comparator)) s).or
          (symbolIn Token.marks s) := symbolIn_append _ _ s
    _ = ((comparator.read s).map (Prod.map .comparator id)).or (symbolIn Token.marks s) :=
        congrArg (·.or (symbolIn Token.marks s)) (symbolIn_comparators Operator.symbols s)

theorem comparator_reads : comparator.Reads Token.comparator? := by
  intro s op r
  constructor
  · intro hread
    refine ⟨.comparator op, token_read_of_symbol ?_, rfl⟩
    rw [symbol_read_eq, hread]
    rfl
  · rintro ⟨t, htoken, hkind⟩
    rcases token_read_cases htoken with hsymbol | ⟨chars, -, rfl⟩ | ⟨mark, inside, -, rfl⟩
    · rw [symbol_read_eq] at hsymbol
      rcases Option.or_eq_some_iff.mp hsymbol with hfound | ⟨-, hmark⟩
      · obtain ⟨⟨op', r'⟩, hread, ⟨⟩⟩ := Option.map_eq_some_iff.mp hfound
        cases hkind
        exact hread
      · obtain ⟨chars, hmem, -⟩ := (symbolIn_eq_some_iff Token.marks_sorted).mp hmark
        have hnone : ∀ entry ∈ Token.marks, entry.2.comparator? = none := by decide
        rw [hnone _ hmem] at hkind
        cases hkind
    · refine absurd hkind (Token.ofRun_ne ?_ ?_ chars)
      all_goals simp [Token.comparator?]
    · cases hkind

theorem quoted_reads : quoted.Reads Token.quoted? := by
  rintro s ⟨mark, inside⟩ r
  constructor
  · exact fun hread => ⟨_, token_read_of_quoted hread, rfl⟩
  · rintro ⟨t, htoken, hkind⟩
    rcases token_read_cases htoken with hsymbol | ⟨chars, -, rfl⟩ | ⟨mark', inside', hread, rfl⟩
    · obtain ⟨chars, hmem, -⟩ := symbol_read_eq_some_iff.mp hsymbol
      have hnone : ∀ entry ∈ Token.symbols, entry.2.quoted? = none := by decide
      rw [hnone _ hmem] at hkind
      cases hkind
    · refine absurd hkind (Token.ofRun_ne ?_ ?_ chars)
      all_goals simp [Token.quoted?]
    · cases hkind
      exact hread

/-! ### Keywords and words -/

theorem isWordChar_of_toLower {c : Char} (hlower : isWordChar c.toLower) : isWordChar c := by
  by_contra hc
  have hfixed : ([' ', '\t', '\r', '\n'] ++ marks).all fun d => !isWordChar d.toLower := by decide
  have hmem : c ∈ [' ', '\t', '\r', '\n'] ++ marks := by
    simp only [isWordChar, isGap] at hc
    simp only [List.mem_append, List.mem_cons]
    grind
  simpa [hlower] using List.all_eq_true.mp hfixed c hmem

theorem symbol_read_of_run {s : List Char} {found : List Char × List Char}
    (hrun : wordRun? s = some found) : symbol.read s = none := by
  cases s with
  | nil => rfl
  | cons c s => exact symbol_read_eq_none (.inl (isWordChar_of_wordRun? hrun)) s

theorem afterCaseless_eq_some_iff {chars s r : List Char} :
    afterCaseless chars s = some r ↔ ∃ run, s = run ++ r ∧ run.map Char.toLower = chars := by
  induction chars generalizing s with
  | nil => simp [afterCaseless]
  | cons c chars ih =>
      cases s with
      | nil =>
          simp only [afterCaseless, reduceCtorEq, false_iff]
          rintro ⟨run, hrun, hlower⟩
          obtain ⟨rfl, -⟩ := List.append_eq_nil_iff.mp hrun.symm
          cases hlower
      | cons d s =>
          simp only [afterCaseless]
          split
          next hd =>
              rw [ih]
              constructor
              · rintro ⟨run, rfl, hlower⟩
                exact ⟨d :: run, rfl, by rw [List.map_cons, hd, hlower]⟩
              · rintro ⟨run, hrun, hlower⟩
                obtain ⟨e, run, rfl, he, hlower⟩ := List.map_eq_cons_iff.mp hlower
                exact ⟨run, (List.cons.inj hrun).2, hlower⟩
          next hd =>
              simp only [reduceCtorEq, false_iff]
              rintro ⟨run, hrun, hlower⟩
              obtain ⟨e, run, rfl, he, hlower⟩ := List.map_eq_cons_iff.mp hlower
              obtain ⟨rfl, -⟩ := List.cons.inj hrun
              exact hd he

/-- A keyword is a run that is the keyword in small letters. -/
theorem keyword_read_eq_some_iff {chars : List Char} {hne : chars ≠ []} {token : Token}
    (hkeyword : Token.keyword? chars = some token) {s r : List Char} :
    (keyword chars hne).read s = some ((), r) ↔
      ∃ run, wordRun? s = some (run, r) ∧ run.map Char.toLower = chars := by
  constructor
  · intro hread
    obtain ⟨hmap, hstop⟩ := Option.filter_eq_some_iff.mp hread
    obtain ⟨r', hafter, ⟨⟩⟩ := Option.map_eq_some_iff.mp hmap
    obtain ⟨run, hs, hlower⟩ := afterCaseless_eq_some_iff.mp hafter
    refine ⟨run, wordRun?_eq_some_iff.mpr ⟨hs, ?_, fun c hc => ?_, by simpa using hstop⟩, hlower⟩
    · rintro rfl
      exact hne hlower.symm
    · have hmem : c.toLower ∈ chars := hlower ▸ List.mem_map_of_mem hc
      exact isWordChar_of_toLower (Token.isWordChar_of_keyword? hkeyword _ hmem)
  · rintro ⟨run, hrun, hlower⟩
    obtain ⟨hs, -, -, hstop⟩ := wordRun?_eq_some_iff.mp hrun
    refine Option.filter_eq_some_iff.mpr ⟨?_, by simpa using hstop⟩
    exact Option.map_eq_some_iff.mpr ⟨r, afterCaseless_eq_some_iff.mpr ⟨run, hs, hlower⟩, rfl⟩

/-- A lexeme made of symbols and a keyword reads the token that all of them stand for. -/
theorem reads_exactly {lexeme : Lexeme Unit} (symbols : Lexeme Unit) {chars : List Char}
    {hne : chars ≠ []} {wanted : Token}
    (hlexeme : ∀ s, lexeme.read s = (symbols.read s).or ((keyword chars hne).read s))
    (hsymbols : ∀ s r, symbols.read s = some ((), r) ↔ symbol.read s = some (wanted, r))
    (hkeyword : Token.keyword? chars = some wanted) :
    lexeme.Reads wanted.exactly := by
  rintro s ⟨⟩ r
  rw [hlexeme]
  constructor
  · intro hread
    rcases Option.or_eq_some_iff.mp hread with hfound | ⟨-, hrun⟩
    · exact ⟨wanted, token_read_of_symbol ((hsymbols s r).mp hfound), by simp⟩
    · obtain ⟨run, hrun, hlower⟩ := (keyword_read_eq_some_iff hkeyword).mp hrun
      refine ⟨_, token_read_of_run hrun, ?_⟩
      simp [Token.ofRun, hlower, hkeyword]
  · rintro ⟨t, htoken, hkind⟩
    obtain rfl := Token.exactly_eq_some_iff.mp hkind
    rcases token_read_cases htoken with hsymbol | ⟨run, hrun, ht⟩ | ⟨mark, inside, -, rfl⟩
    · exact Option.or_eq_some_iff.mpr (.inl ((hsymbols s r).mpr hsymbol))
    · rcases Token.ofRun_cases run with ⟨hlower, -⟩ | ⟨-, hvalue⟩
      · have hnone : symbols.read s = none := by
          rw [Option.eq_none_iff_forall_ne_some]
          rintro ⟨⟨⟩, r'⟩ hfound
          rw [hsymbols, symbol_read_of_run hrun] at hfound
          cases hfound
        have hchars := Token.keyword?_inj (ht ▸ hlower) hkeyword
        exact Option.or_eq_some_iff.mpr
          (.inr ⟨hnone, (keyword_read_eq_some_iff hkeyword).mpr ⟨run, hrun, hchars⟩⟩)
      · rw [ht, hvalue] at hkeyword
        exact absurd hkeyword (Token.keyword?_ne_value _ _)
    · exact absurd hkeyword (Token.keyword?_ne_value _ _)

/-- Symbols for one token are told from all others by their first characters. -/
theorem read_iff_symbol_read {symbols : Lexeme Unit} {wanted : Token} (heads : List Char)
    (hheads : ∀ entry ∈ Token.symbols, entry.2 = wanted → entry.1.head?.any heads.contains)
    (hnil : symbols.read [] = none) (hother : ∀ c s, c ∉ heads → symbols.read (c :: s) = none)
    (hsame : ∀ c ∈ heads, ∀ s r,
      symbols.read (c :: s) = some ((), r) ↔ symbol.read (c :: s) = some (wanted, r))
    (s r : List Char) : symbols.read s = some ((), r) ↔ symbol.read s = some (wanted, r) := by
  cases s with
  | nil =>
      rw [hnil]
      exact ⟨nofun, nofun⟩
  | cons c s =>
      by_cases hc : c ∈ heads
      · exact hsame c hc s r
      · rw [hother c s hc]
        refine ⟨nofun, fun hread => ?_⟩
        obtain ⟨chars, hmem, hs, -⟩ := symbol_read_eq_some_iff.mp hread
        have hhead := hheads _ hmem rfl
        cases chars with
        | nil => cases hhead
        | cons d chars =>
            obtain ⟨rfl, -⟩ := List.cons.inj hs
            exact absurd (by simpa using hhead) hc

/-- The first characters of symbols that begin no comparator. -/
theorem symbol_read_of_mark {c : Char} (hc : c ∈ ['&', '|', ',', '(', ')']) (s : List Char) :
    symbol.read (c :: s) = symbolIn Token.marks (c :: s) := by
  have hnone : comparator.read (c :: s) = none := by
    simp only [List.mem_cons, List.not_mem_nil, or_false] at hc
    rcases hc with rfl | rfl | rfl | rfl | rfl <;> rfl
  rw [symbol_read_eq, hnone]
  rfl

theorem opAnd_reads : opAnd.Reads (Token.exactly .and) := by
  refine reads_exactly (either (text ['&', '&']) (text ['&'])) (fun s => Option.or_assoc.symm)
    (read_iff_symbol_read ['&'] (by decide) rfl ?_ ?_) rfl
  · intro c s hc
    simp_all [either, text, afterText]
  · intro c hc s r
    obtain rfl := List.mem_singleton.mp hc
    rw [symbol_read_of_mark (by decide)]
    cases s with
    | nil => simp [either, text, symbolIn, Token.marks, afterText]
    | cons d s =>
        by_cases hd : d = '&'
        · simp [either, text, symbolIn, Token.marks, afterText, hd]
        · simp [either, text, symbolIn, Token.marks, afterText, hd]

theorem opOr_reads : opOr.Reads (Token.exactly .or) := by
  let symbols := either (text ['|', '|']) (either (text ['|']) (text [',']))
  have hlexeme : ∀ s, opOr.read s = (symbols.read s).or (kwOr.read s) := by
    intro s
    simp [opOr, symbols, either, Option.or_assoc]
  refine reads_exactly symbols hlexeme
    (read_iff_symbol_read ['|', ','] (by decide) rfl ?_ ?_) rfl
  · intro c s hc
    simp_all [symbols, either, text, afterText]
  · intro c hc s r
    rcases List.mem_pair.mp hc with rfl | rfl
    · rw [symbol_read_of_mark (by decide)]
      cases s with
      | nil => simp [symbols, either, text, symbolIn, Token.marks, afterText]
      | cons d s =>
          by_cases hd : d = '|'
          · simp [symbols, either, text, symbolIn, Token.marks, afterText, hd]
          · simp [symbols, either, text, symbolIn, Token.marks, afterText, hd]
    · rw [symbol_read_of_mark (by decide)]
      simp [symbols, either, text, symbolIn, Token.marks, afterText]

/-- A mark that may be a negation begins a comparator before `=` and `~`. -/
theorem comparator_read_bang (s : List Char) :
    comparator.read ('!' :: s) = none ↔ ¬s.head?.any fun c => c == '=' || c == '~' := by
  cases s with
  | nil => simp [comparator, comparatorIn, Operator.symbols, afterText]
  | cons d s =>
      by_cases htilde : d = '~'
      · simp [comparator, comparatorIn, Operator.symbols, afterText, htilde]
      · by_cases heq : d = '='
        · simp [comparator, comparatorIn, Operator.symbols, afterText, heq]
        · simp [comparator, comparatorIn, Operator.symbols, afterText, htilde, heq]

theorem opNot_reads : opNot.Reads (Token.exactly .not) := by
  refine reads_exactly (notBefore (text ['!']) fun c => c == '=' || c == '~') (fun s => rfl)
    (read_iff_symbol_read ['!'] (by decide) rfl ?_ ?_) rfl
  · intro c s hc
    simp_all [notBefore, text, afterText]
  · intro c hc s r
    obtain rfl := List.mem_singleton.mp hc
    have hmark : symbolIn Token.marks ('!' :: s) = some (.not, s) := rfl
    have hbang := comparator_read_bang s
    rw [symbol_read_eq, hmark]
    cases hread : comparator.read ('!' :: s) with
    | none =>
        have hstop := hbang.mp hread
        have hnot : (notBefore (text ['!']) fun c => c == '=' || c == '~').read ('!' :: s) =
            some ((), s) := by
          simpa [notBefore, text, afterText] using hstop
        rw [hnot]
        simp
    | some found =>
        have hstop : s.head?.any fun c => c == '=' || c == '~' := by
          by_contra hstop
          rw [hbang.mpr hstop] at hread
          cases hread
        have hnot : (notBefore (text ['!']) fun c => c == '=' || c == '~').read ('!' :: s) =
            none := by
          simpa [notBefore, text, afterText] using hstop
        rw [hnot]
        simp [Prod.ext_iff]

/-- A symbol that no keyword stands for reads its token. -/
theorem reads_of_symbol_read {lexeme : Lexeme Unit} {wanted : Token}
    (hsymbol : ∀ s r, lexeme.read s = some ((), r) ↔ symbol.read s = some (wanted, r))
    (hkeyword : ∀ token ∈ [Token.and, .or, .not], token ≠ wanted)
    (hvalue : ∀ literal, Token.value literal ≠ wanted) : lexeme.Reads wanted.exactly := by
  rintro s ⟨⟩ r
  rw [hsymbol]
  constructor
  · exact fun hread => ⟨wanted, token_read_of_symbol hread, by simp⟩
  · rintro ⟨t, htoken, hkind⟩
    rcases token_read_cases htoken with hread | ⟨run, -, rfl⟩ | ⟨mark, inside, -, rfl⟩
    · rwa [← Token.exactly_eq_some_iff.mp hkind]
    · refine absurd hkind (Token.ofRun_ne ?_ ?_ run)
      · simpa using hkeyword
      · simpa using fun chars => hvalue (.word chars)
    · exact absurd (Token.exactly_eq_some_iff.mp hkind) (hvalue _)

/-- A symbol of one character that no other symbol begins with, and no keyword stands for. -/
theorem text_reads {c : Char} {wanted : Token}
    (hhead : ∀ entry ∈ Token.symbols, entry.2 = wanted → entry.1.head?.any [c].contains)
    (hsymbol : ∀ s, symbol.read (c :: s) = some (wanted, s))
    (hkeyword : ∀ token ∈ [Token.and, .or, .not], token ≠ wanted)
    (hvalue : ∀ literal, Token.value literal ≠ wanted) :
    (text [c] (List.cons_ne_nil c [])).Reads wanted.exactly := by
  refine reads_of_symbol_read (read_iff_symbol_read [c] hhead rfl ?_ ?_) hkeyword hvalue
  · intro d s hd
    simp_all [text, afterText]
  · intro d hd s r
    obtain rfl := List.mem_singleton.mp hd
    rw [hsymbol]
    simp [text, afterText]

theorem opening_reads : (text ['(']).Reads (Token.exactly .opening) :=
  text_reads (by decide) (symbol_read_of_mark (by decide)) (by decide) nofun

theorem closing_reads : (text [')']).Reads (Token.exactly .closing) :=
  text_reads (by decide) (symbol_read_of_mark (by decide)) (by decide) nofun

theorem keyword_read_isSome_iff {kw : List Char} {hne : kw ≠ []} {token : Token}
    (hkeyword : Token.keyword? kw = some token) {s chars r : List Char}
    (hrun : wordRun? s = some (chars, r)) :
    ((keyword kw hne).read s).isSome ↔ chars.map Char.toLower = kw := by
  constructor
  · intro hsome
    obtain ⟨⟨⟨⟩, r'⟩, hread⟩ := Option.isSome_iff_exists.mp hsome
    obtain ⟨run, hrun', hlower⟩ := (keyword_read_eq_some_iff hkeyword).mp hread
    rw [hrun] at hrun'
    cases hrun'
    exact hlower
  · intro hlower
    rw [(keyword_read_eq_some_iff hkeyword).mpr ⟨chars, hrun, hlower⟩]
    rfl

theorem anyKeyword_read_isSome_iff {s chars r : List Char} (hrun : wordRun? s = some (chars, r)) :
    (anyKeyword.read s).isSome ↔ (Token.keyword? (chars.map Char.toLower)).isSome := by
  have hand : (kwAnd.read s).isSome ↔ _ := keyword_read_isSome_iff rfl hrun
  have hor : (kwOr.read s).isSome ↔ _ := keyword_read_isSome_iff rfl hrun
  have hnot : (kwNot.read s).isSome ↔ _ := keyword_read_isSome_iff rfl hrun
  have hany : (anyKeyword.read s).isSome ↔
      (kwAnd.read s).isSome ∨ (kwOr.read s).isSome ∨ (kwNot.read s).isSome := by
    simp [anyKeyword, either]
  rw [hany, hand, hor, hnot]
  constructor
  · rintro (hlower | hlower | hlower)
    all_goals
      rw [hlower]
      rfl
  · intro hsome
    obtain ⟨token, hkeyword⟩ := Option.isSome_iff_exists.mp hsome
    rcases Token.keyword?_eq_some hkeyword with ⟨hlower, -⟩ | ⟨hlower, -⟩ | ⟨hlower, -⟩
    · exact .inl hlower
    · exact .inr (.inl hlower)
    · exact .inr (.inr hlower)

theorem word_reads : word.Reads Token.word? := by
  intro s chars r
  constructor
  · intro hread
    have hkeyword : ¬(anyKeyword.read s).isSome := by
      intro hsome
      simp [word, hsome] at hread
    have hrun : wordRun? s = some (chars, r) := by simpa [word, hkeyword] using hread
    refine ⟨_, token_read_of_run hrun, ?_⟩
    rw [anyKeyword_read_isSome_iff hrun] at hkeyword
    rcases Token.ofRun_cases chars with ⟨hsome, -⟩ | ⟨-, ht⟩
    · rw [hsome] at hkeyword
      exact absurd rfl hkeyword
    · rw [ht]
      rfl
  · rintro ⟨t, htoken, hkind⟩
    rcases token_read_cases htoken with hsymbol | ⟨run, hrun, rfl⟩ | ⟨mark, inside, -, rfl⟩
    · obtain ⟨chars, hmem, -⟩ := symbol_read_eq_some_iff.mp hsymbol
      have hnone : ∀ entry ∈ Token.symbols, entry.2.word? = none := by decide
      rw [hnone _ hmem] at hkind
      cases hkind
    · rcases Token.ofRun_cases run with ⟨-, hmem⟩ | ⟨hnone, ht⟩
      · have hword : ∀ token ∈ [Token.and, .or, .not], token.word? = none := by decide
        rw [hword _ hmem] at hkind
        cases hkind
      · rw [ht] at hkind
        cases hkind
        have hkeyword : ¬(anyKeyword.read s).isSome := by
          rw [anyKeyword_read_isSome_iff hrun, hnone]
          exact Bool.false_ne_true
        simpa [word, hkeyword] using hrun
    · cases hkind

end Lexeme

end FieldSearch.Query
