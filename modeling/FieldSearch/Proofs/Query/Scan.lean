import FieldSearch.Proofs.Query.Token
import Mathlib.Data.List.DropRight
import Mathlib.Data.List.TakeWhile

/-! Finding the token at the front of a text. The first character decides between symbols, words and
literals; among symbols the first in the table that fits is the longest, a run of word characters
ends where they end, and a literal ends at the first mark that no backslash takes with it. -/

namespace FieldSearch.Query

namespace Lexeme

variable {α β : Type}

def map (f : α → β) (lexeme : Lexeme α) : Lexeme β where
  read s := (lexeme.read s).map (Prod.map f id)
  shorter h := by
    obtain ⟨⟨a, r⟩, hr, he⟩ := Option.map_eq_some_iff.mp h
    cases he
    exact lexeme.shorter hr

theorem afterText_eq_some_iff {text s r : List Char} :
    afterText text s = some r ↔ s = text ++ r := by
  induction text generalizing s with
  | nil => simp [afterText]
  | cons t text ih =>
      cases s with
      | nil => simp [afterText]
      | cons c s =>
          by_cases heq : c = t
          · simp [afterText, heq, ih]
          · simp [afterText, heq]

/-! ### Symbols -/

/-- The first symbol of a table that fits. -/
def symbolIn : List (List Char × Token) → List Char → Option (Token × List Char)
  | [], _ => none
  | (symbol, token) :: more, s =>
    match afterText symbol s with
    | some r => some (token, r)
    | none => symbolIn more s

/-- Where no symbol begins a later one, the first that fits is the longest. -/
theorem symbolIn_eq_some_iff {table : List (List Char × Token)}
    (hsorted : table.Pairwise fun entry later => ¬entry.1 <+: later.1) {s r : List Char}
    {token : Token} :
    symbolIn table s = some (token, r) ↔
      ∃ symbol, (symbol, token) ∈ table ∧ s = symbol ++ r ∧
        ∀ entry ∈ table, entry.1 <+: s → entry.1.length ≤ symbol.length := by
  induction table with
  | nil => simp [symbolIn]
  | cons entry table ih =>
      obtain ⟨symbol₀, token₀⟩ := entry
      obtain ⟨hfirst, htable⟩ := List.pairwise_cons.mp hsorted
      unfold symbolIn
      cases hafter : afterText symbol₀ s with
      | none =>
          have hno : ¬symbol₀ <+: s := by
            rintro ⟨r₀, hr₀⟩
            rw [afterText_eq_some_iff.mpr hr₀.symm] at hafter
            cases hafter
          rw [ih htable]
          constructor
          · rintro ⟨symbol, hmem, hs, hlongest⟩
            refine ⟨symbol, List.mem_cons_of_mem _ hmem, hs, fun entry hentry hfront => ?_⟩
            rcases List.mem_cons.mp hentry with rfl | htail
            · exact absurd hfront hno
            · exact hlongest entry htail hfront
          · rintro ⟨symbol, hmem, hs, hlongest⟩
            rcases List.mem_cons.mp hmem with heq | htail
            · cases heq
              exact absurd ⟨r, hs.symm⟩ hno
            · exact ⟨symbol, htail, hs, fun entry hentry => hlongest entry (by simp [hentry])⟩
      | some r₀ =>
          have hs₀ := afterText_eq_some_iff.mp hafter
          have hfront₀ : symbol₀ <+: s := ⟨r₀, hs₀.symm⟩
          constructor
          · rintro ⟨⟩
            refine ⟨symbol₀, by simp, hs₀, fun entry hentry hfront => ?_⟩
            rcases List.mem_cons.mp hentry with rfl | htail
            · exact Nat.le_refl _
            · rcases List.prefix_or_prefix_of_prefix hfront₀ hfront with hlater | hshorter
              · exact absurd hlater (hfirst entry htail)
              · exact hshorter.length_le
          · rintro ⟨symbol, hmem, hs, hlongest⟩
            rcases List.mem_cons.mp hmem with heq | htail
            · cases heq
              rw [List.append_cancel_left (hs₀.symm.trans hs)]
            · have hle := hlongest (symbol₀, token₀) (by simp) hfront₀
              have hlater := List.prefix_of_prefix_length_le hfront₀ ⟨r, hs.symm⟩ hle
              exact absurd hlater (hfirst _ htail)

/-! ### Words -/

theorem isWordChar_of_wordRun? {c : Char} {s : List Char} {found : List Char × List Char}
    (hrun : wordRun? (c :: s) = some found) : isWordChar c := by
  by_contra hc
  simp [wordRun?, hc] at hrun

theorem wordRun?_eq_some_iff {s run r : List Char} :
    wordRun? s = some (run, r) ↔
      s = run ++ r ∧ run ≠ [] ∧ (∀ c ∈ run, isWordChar c) ∧ ¬r.head?.any isWordChar := by
  constructor
  · intro hrun
    cases s with
    | nil => cases hrun
    | cons c s =>
        by_cases hc : isWordChar c
        · simp only [wordRun?, hc, if_true, Option.some.injEq, Prod.mk.injEq] at hrun
          obtain ⟨rfl, rfl⟩ := hrun
          refine ⟨by simp, by simp, ?_, ?_⟩
          · intro d hd
            rcases List.mem_cons.mp hd with rfl | htail
            · exact hc
            · exact List.mem_takeWhile_imp htail
          · have hstop := List.head?_dropWhile_not isWordChar s
            cases hhead : (s.dropWhile isWordChar).head? with
            | none => simp
            | some d => simp_all
        · simp [wordRun?, hc] at hrun
  · rintro ⟨rfl, hne, hword, hstop⟩
    obtain ⟨c, run, rfl⟩ := List.exists_cons_of_ne_nil hne
    have htake : r.takeWhile isWordChar = [] ∧ r.dropWhile isWordChar = r := by
      cases r with
      | nil => exact ⟨rfl, rfl⟩
      | cons d r => simp_all
    have hrun : ∀ c ∈ run, isWordChar c := fun c hc => hword c (by simp [hc])
    simp [wordRun?, hword c, List.takeWhile_append_of_pos hrun, List.dropWhile_append_of_pos hrun,
      htake]

/-! ### Literals in quotes -/

/-- The inside of a literal ends at its mark. -/
theorem quotedRun_of_isInside {mark : Char} (hmark : IsQuote mark) {inside : List Char}
    (hinside : IsInside mark inside) (r : List Char) :
    quotedRun mark (inside ++ mark :: r) = (inside, mark :: r) := by
  have hback := hmark.ne_backslash
  induction hinside with
  | nil =>
      rw [List.nil_append]
      unfold quotedRun
      split <;> simp_all
  | plain hc hescape _ ih =>
      rw [List.cons_append]
      unfold quotedRun
      split <;> simp_all
  | escaped _ ih => simp [quotedRun, ih]

/-- What is found inside a literal is the front of the text and takes every mark behind a backslash.
-/
theorem quotedRun_sound (mark : Char) (s : List Char) :
    s = (quotedRun mark s).1 ++ (quotedRun mark s).2 ∧ IsInside mark (quotedRun mark s).1 := by
  fun_induction quotedRun mark s with
  | case1 => exact ⟨rfl, .nil⟩
  | case2 => exact ⟨rfl, .nil⟩
  | case3 c r run rest hrun ih =>
      rw [hrun] at ih
      exact ⟨by simp [← ih.1], .escaped ih.2⟩
  | case4 r => exact ⟨rfl, .nil⟩
  | case5 c r hlast hescape hc run rest hrun ih =>
      rw [hrun] at ih
      refine ⟨by simp [← ih.1], .plain hc ?_ ih.2⟩
      rintro rfl
      cases r with
      | nil => exact hlast rfl rfl
      | cons d r => exact hescape d r rfl rfl

theorem quoted_read_eq_some_iff {s : List Char} {mark : Char} {inside r : List Char} :
    quoted.read s = some ((mark, inside), r) ↔
      IsQuote mark ∧ IsInside mark inside ∧ s = mark :: inside ++ mark :: r := by
  constructor
  · intro hread
    cases s with
    | nil => cases hread
    | cons c s =>
        obtain ⟨hs, hinside⟩ := quotedRun_sound c s
        simp only [quoted] at hread
        split at hread
        next hmark =>
            split at hread
            next run d rest hrun =>
                split at hread
                next hd =>
                    rw [hrun] at hs hinside
                    simp only [Option.some.injEq, Prod.mk.injEq] at hread
                    obtain ⟨⟨rfl, rfl⟩, rfl⟩ := hread
                    exact ⟨hmark, hinside, by rw [hs, hd]; rfl⟩
                next => cases hread
            next => cases hread
        next => cases hread
  · rintro ⟨hmark, hinside, rfl⟩
    have hrun := quotedRun_of_isInside hmark hinside r
    unfold IsQuote at hmark
    simp [quoted, hmark, hrun]

/-! ### Tokens -/

def symbol : Lexeme Token where
  read := symbolIn Token.symbols
  shorter {s token r} h := by
    obtain ⟨symbol, hmem, rfl, -⟩ := (symbolIn_eq_some_iff Token.symbols_sorted).mp h
    obtain ⟨c, rest, rfl, -⟩ := exists_cons_of_mem_symbols hmem
    simp only [List.length_append, List.length_cons]
    omega

/-- A run of word characters, which may be a keyword. -/
def run : Lexeme Token where
  read s := (wordRun? s).map fun (run, r) => (Token.ofRun run, r)
  shorter h := by
    obtain ⟨⟨run, r⟩, hr, he⟩ := Option.map_eq_some_iff.mp h
    cases he
    exact length_wordRun?_lt hr

/-- The token at the front of a text. -/
def token : Lexeme Token :=
  either symbol (either run (quoted.map fun (mark, inside) => .value (.quoted mark inside)))

theorem symbol_read_eq_none {c : Char} (hc : isWordChar c ∨ IsQuote c) (s : List Char) :
    symbol.read (c :: s) = none := by
  rw [Option.eq_none_iff_forall_ne_some]
  rintro ⟨t, r⟩ hread
  obtain ⟨chars, hmem, hs, -⟩ := (symbolIn_eq_some_iff Token.symbols_sorted).mp hread
  obtain ⟨d, rest, rfl, -, hword, hquote⟩ := exists_cons_of_mem_symbols hmem
  obtain ⟨rfl, -⟩ := List.cons.inj hs
  exact hc.elim hword hquote

theorem token_read_of_symbol {s r : List Char} {t : Token} (hread : symbol.read s = some (t, r)) :
    token.read s = some (t, r) :=
  Option.or_eq_some_iff.mpr (.inl hread)

theorem token_read_of_run {s chars r : List Char} (hrun : wordRun? s = some (chars, r)) :
    token.read s = some (.ofRun chars, r) := by
  have hread : run.read s = some (.ofRun chars, r) := by simp [run, hrun]
  cases s with
  | nil => cases hrun
  | cons c s =>
      have hc := isWordChar_of_wordRun? hrun
      exact Option.or_eq_some_iff.mpr
        (.inr ⟨symbol_read_eq_none (.inl hc) s, Option.or_eq_some_iff.mpr (.inl hread)⟩)

theorem token_read_of_quoted {s : List Char} {mark : Char} {inside r : List Char}
    (hquoted : quoted.read s = some ((mark, inside), r)) :
    token.read s = some (.value (.quoted mark inside), r) := by
  obtain ⟨hmark, -, rfl⟩ := quoted_read_eq_some_iff.mp hquoted
  have hrun : run.read (mark :: inside ++ mark :: r) = none := by
    simp [run, wordRun?, hmark.not_isWordChar]
  refine Option.or_eq_some_iff.mpr (.inr ⟨symbol_read_eq_none (.inr hmark) _, ?_⟩)
  exact Option.or_eq_some_iff.mpr (.inr ⟨hrun, by simp only [map, hquoted, Option.map_some]; rfl⟩)

/-- What is found is a symbol, a run or a literal. -/
theorem token_read_cases {s r : List Char} {t : Token} (hread : token.read s = some (t, r)) :
    symbol.read s = some (t, r) ∨ (∃ chars, wordRun? s = some (chars, r) ∧ t = .ofRun chars) ∨
      ∃ mark inside, quoted.read s = some ((mark, inside), r) ∧
        t = .value (.quoted mark inside) := by
  rcases Option.or_eq_some_iff.mp hread with hsymbol | ⟨-, hrest⟩
  · exact .inl hsymbol
  rcases Option.or_eq_some_iff.mp hrest with hrun | ⟨-, hquoted⟩
  · obtain ⟨⟨chars, r'⟩, hchars, ⟨⟩⟩ := Option.map_eq_some_iff.mp hrun
    exact .inr (.inl ⟨chars, hchars, rfl⟩)
  · obtain ⟨⟨⟨mark, inside⟩, r'⟩, hinside, ⟨⟩⟩ := Option.map_eq_some_iff.mp hquoted
    exact .inr (.inr ⟨mark, inside, hinside, rfl⟩)

theorem token_read_sound {s r : List Char} {t : Token} (hread : token.read s = some (t, r)) :
    TokenAt s t r := by
  cases s with
  | nil => cases hread
  | cons c s =>
      rcases token_read_cases hread with hsymbol | ⟨chars, hchars, rfl⟩ |
        ⟨mark, inside, hquoted, rfl⟩
      · obtain ⟨chars, hmem, hs, hlongest⟩ := (symbolIn_eq_some_iff Token.symbols_sorted).mp hsymbol
        refine ⟨chars, hs, .symbol hmem, fun other longer hfront hspelled => ?_⟩
        rcases hspelled.kind_of_front hfront with ⟨-, -, -, hmem'⟩ | ⟨hword, -⟩ | ⟨hquote, -⟩
        · exact hlongest _ hmem' hfront
        · rw [symbol_read_eq_none (.inl hword)] at hsymbol
          cases hsymbol
        · rw [symbol_read_eq_none (.inr hquote)] at hsymbol
          cases hsymbol
      · obtain ⟨hs, hne, hword, hstop⟩ := wordRun?_eq_some_iff.mp hchars
        have hc := isWordChar_of_wordRun? hchars
        refine ⟨chars, hs, .run hne hword, fun other longer hfront hspelled => ?_⟩
        rcases hspelled.kind_of_front hfront with ⟨-, hc', -⟩ | ⟨-, hall, -⟩ | ⟨hquote, -⟩
        · exact absurd hc hc'
        · by_contra hlonger
          have hchars : chars <+: longer :=
            List.prefix_of_prefix_length_le ⟨r, hs.symm⟩ hfront (by omega)
          obtain ⟨more, rfl⟩ := hchars
          cases more with
          | nil => simp at hlonger
          | cons d more =>
              rw [hs, List.prefix_append_right_inj] at hfront
              obtain ⟨rest, rfl⟩ := hfront
              exact hstop (by simpa using hall d (by simp))
        · exact absurd hc hquote.not_isWordChar
      · obtain ⟨hmark, hinside, hs⟩ := quoted_read_eq_some_iff.mp hquoted
        obtain ⟨rfl, -⟩ := List.cons.inj hs
        refine ⟨c :: inside ++ [c], by simpa using hs, .quoted hmark hinside,
          fun other longer hfront hspelled => ?_⟩
        rcases hspelled.kind_of_front hfront with
          ⟨-, -, hquote, -⟩ | ⟨hword, -⟩ | ⟨-, inside', hin', rfl, -⟩
        · exact absurd hmark hquote
        · exact absurd hword hmark.not_isWordChar
        · obtain ⟨r', hr'⟩ := hfront
          have hsame : quoted.read (c :: s) = some ((c, inside'), r') :=
            quoted_read_eq_some_iff.mpr ⟨hmark, hin', by simpa using hr'.symm⟩
          rw [hquoted] at hsame
          cases hsame
          exact Nat.le_refl _

theorem token_read_complete {s r : List Char} {t : Token} (htoken : TokenAt s t r) :
    token.read s = some (t, r) := by
  obtain ⟨written, hs, hspelled, hlongest⟩ := htoken
  cases s with
  | nil =>
      obtain ⟨rfl, rfl⟩ := List.append_eq_nil_iff.mp hs.symm
      cases hspelled with
      | symbol hmem =>
          obtain ⟨_, _, ⟨⟩, -⟩ := exists_cons_of_mem_symbols hmem
      | run hne => exact absurd rfl hne
  | cons c s =>
      rcases hspelled.kind_of_front ⟨r, hs.symm⟩ with ⟨-, -, -, hmem⟩ | ⟨-, hword, hne, rfl⟩ |
        ⟨hquote, inside, hinside, rfl, rfl⟩
      · have hsymbol : symbol.read (c :: s) = some (t, r) :=
          (symbolIn_eq_some_iff Token.symbols_sorted).mpr
            ⟨written, hmem, hs, fun entry hentry hfront => hlongest _ _ hfront (.symbol hentry)⟩
        exact token_read_of_symbol hsymbol
      · have hstop : ¬r.head?.any isWordChar := by
          intro hmore
          cases r with
          | nil => cases hmore
          | cons d r =>
              have hall : ∀ e ∈ written ++ [d], isWordChar e := by
                intro e he
                rcases List.mem_append.mp he with hwritten | hlast
                · exact hword e hwritten
                · obtain rfl := List.mem_singleton.mp hlast
                  simpa using hmore
              have hle := hlongest _ (written ++ [d]) ⟨r, by simp [hs]⟩ (.run (by simp) hall)
              simp only [List.length_append, List.length_singleton] at hle
              omega
        exact token_read_of_run (wordRun?_eq_some_iff.mpr ⟨hs, hne, hword, hstop⟩)
      · exact token_read_of_quoted
          (quoted_read_eq_some_iff.mpr ⟨hquote, hinside, by simpa using hs⟩)

theorem token_read_eq_some_iff {s r : List Char} {t : Token} :
    token.read s = some (t, r) ↔ TokenAt s t r :=
  ⟨token_read_sound, token_read_complete⟩

/-- No token begins with a gap. -/
theorem skipGaps_of_token_read {s r : List Char} {t : Token}
    (hread : token.read s = some (t, r)) : skipGaps s = s := by
  obtain ⟨written, hs, hspelled, -⟩ := token_read_sound hread
  cases s with
  | nil => rfl
  | cons c s =>
      have hgap : ¬isGap c := by
        rcases hspelled.kind_of_front ⟨r, hs.symm⟩ with ⟨hgap, -⟩ | ⟨hword, -⟩ | ⟨rfl | rfl, -⟩
        · exact hgap
        · simp_all [isWordChar]
        · decide
        · decide
      simp [skipGaps, hgap]

end Lexeme

/-! ### Texts -/

/-- The tokens at the front of a text, with what is left where no further token can be read. -/
def split (s : List Char) : List Token × List Char :=
  match Lexeme.token.at? (skipGaps s) with
  | none => ([], skipGaps s)
  | some (token, rest) =>
    have := rest.shorter
    have := length_skipGaps_le s
    let (tokens, left) := split rest.chars
    (token :: tokens, left)
termination_by s.length

theorem Lexeme.at?_of_read {α : Type} {lexeme : Lexeme α} {s r : List Char} {a : α}
    (hread : lexeme.read s = some (a, r)) :
    lexeme.at? s = some (a, ⟨r, lexeme.shorter hread⟩) := by
  unfold at?
  split
  next hnone => simp [hread] at hnone
  next a' r' hsome =>
      rw [hread] at hsome
      cases hsome
      rfl

theorem Lexeme.at?_of_read_eq_none {α : Type} {lexeme : Lexeme α} {s : List Char}
    (hread : lexeme.read s = none) : lexeme.at? s = none := by
  unfold at?
  split
  next => rfl
  next hsome => simp [hread] at hsome

theorem skipGaps_skipGaps (s : List Char) : skipGaps (skipGaps s) = skipGaps s :=
  List.dropWhile_idempotent isGap s

theorem split_of_read_eq_none {s : List Char} (hread : Lexeme.token.read (skipGaps s) = none) :
    split s = ([], skipGaps s) := by
  rw [split, Lexeme.at?_of_read_eq_none hread]

theorem split_of_read {s r : List Char} {t : Token}
    (hread : Lexeme.token.read (skipGaps s) = some (t, r)) :
    split s = (t :: (split r).1, (split r).2) := by
  rw [split, Lexeme.at?_of_read hread]

theorem split_skipGaps (s : List Char) : split (skipGaps s) = split s := by
  have hskip := skipGaps_skipGaps s
  cases hread : Lexeme.token.read (skipGaps s) with
  | none => rw [split_of_read_eq_none hread, split_of_read_eq_none (by rwa [hskip]), hskip]
  | some found => rw [split_of_read hread, split_of_read (by rwa [hskip])]

theorem skipGaps_of_gap {gap : List Char} (hgap : ∀ c ∈ gap, isGap c) (s : List Char) :
    skipGaps (gap ++ s) = skipGaps s :=
  List.dropWhile_append_of_pos hgap

/-- A text is cut into tokens if and only if nothing is left of it. -/
theorem split_eq_iff {s : List Char} {tokens : List Token} :
    split s = (tokens, []) ↔ Splits s tokens := by
  constructor
  · intro hsplit
    induction hlength : s.length using Nat.strong_induction_on generalizing s tokens with
    | _ length ih =>
        obtain ⟨gap, hgap, hs⟩ : ∃ gap, (∀ c ∈ gap, isGap c) ∧ s = gap ++ skipGaps s :=
          ⟨s.takeWhile isGap, fun c => List.mem_takeWhile_imp, by simp [skipGaps]⟩
        cases hread : Lexeme.token.read (skipGaps s) with
        | none =>
            rw [split_of_read_eq_none hread] at hsplit
            obtain ⟨rfl, hskip⟩ := Prod.mk.inj hsplit
            rw [hs, hskip, List.append_nil]
            exact .nil hgap
        | some found =>
            obtain ⟨t, r⟩ := found
            rw [split_of_read hread] at hsplit
            obtain ⟨rfl, hleft⟩ := Prod.mk.inj hsplit
            have hshorter := Nat.lt_of_lt_of_le (Lexeme.token.shorter hread) (length_skipGaps_le s)
            rw [hs]
            exact .cons hgap (Lexeme.token_read_eq_some_iff.mp hread)
              (ih r.length (hlength ▸ hshorter) (Prod.ext rfl hleft) rfl)
  · intro hsplits
    induction hsplits with
    | @nil gap hgap =>
        have hskip : skipGaps gap = [] := by simpa [skipGaps] using skipGaps_of_gap hgap []
        rw [split_of_read_eq_none (by rw [hskip]; rfl), hskip]
    | @cons gap s t rest tokens hgap htoken _ ih =>
        have hread := Lexeme.token_read_eq_some_iff.mpr htoken
        have hskip : skipGaps (gap ++ s) = s :=
          (skipGaps_of_gap hgap s).trans (Lexeme.skipGaps_of_token_read hread)
        rw [split_of_read (by rw [hskip]; exact hread), ih]

end FieldSearch.Query
