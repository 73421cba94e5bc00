import FieldSearch.Proofs.Query.Language
import FieldSearch.Proofs.Query.Rendering

/-! Gaps between the pieces of a text. One gap is as good as any other, and around the whole text it
is as good as none; only inside of quotes every character counts. Texts that differ in their gaps
alone are cut into the same tokens, so both are read as the same tree, or both are empty, or both
are refused. -/

namespace FieldSearch.Query

/-- No mark ends a literal here. -/
def NeverCloses (mark : Char) (s : List Char) : Prop :=
  ∀ inside rest, IsInside mark inside → s ≠ inside ++ mark :: rest

/-- Two texts that differ in their gaps alone, from a place outside of quotes on. Where one has a
gap the other has one as well, except at the end. Literals are the same in both, and so is all that
stands behind a mark without another one to close it. -/
inductive Respaced : List Char → List Char → Prop
  | ending {gap gap'} : IsSpace gap → IsSpace gap' → Respaced gap gap'
  | gap {gap gap' s s'} : IsSpace gap → gap ≠ [] → IsSpace gap' → gap' ≠ [] → Respaced s s' →
      Respaced (gap ++ s) (gap' ++ s')
  | plain {c s s'} : ¬isGap c → ¬IsQuote c → Respaced s s' → Respaced (c :: s) (c :: s')
  | quoted {mark inside s s'} : IsQuote mark → IsInside mark inside → Respaced s s' →
      Respaced (mark :: inside ++ mark :: s) (mark :: inside ++ mark :: s')
  | unclosed {mark s} : IsQuote mark → NeverCloses mark s → Respaced (mark :: s) (mark :: s)

/-- Two texts that differ in their gaps alone. At the beginning one may have a gap where the other
has none. -/
def RespacedText (s s' : List Char) : Prop :=
  ∃ before inner before' inner', s = before ++ inner ∧ s' = before' ++ inner' ∧ IsSpace before ∧
    IsSpace before' ∧ Respaced inner inner'

theorem IsQuote.not_isGap {c : Char} (hquote : IsQuote c) : ¬isGap c := by
  rcases hquote with rfl | rfl <;> decide

theorem IsSpace.skipGaps_eq_nil {gap : List Char} (hspace : IsSpace gap) : skipGaps gap = [] := by
  simpa [skipGaps] using skipGaps_of_gap hspace []

theorem skipGaps_cons {c : Char} (hgap : ¬isGap c) (s : List Char) :
    skipGaps (c :: s) = c :: s := by
  simp [skipGaps, hgap]

/-- A literal ends in one place only. -/
theorem IsInside.eq_of_append {mark : Char} (hmark : IsQuote mark)
    {inside inside' rest rest' : List Char} (hinside : IsInside mark inside)
    (hinside' : IsInside mark inside') (heq : inside ++ mark :: rest = inside' ++ mark :: rest') :
    inside = inside' ∧ rest = rest' := by
  have hrun := Lexeme.quotedRun_of_isInside hmark hinside rest
  rw [heq, Lexeme.quotedRun_of_isInside hmark hinside' rest'] at hrun
  obtain ⟨rfl, hrest⟩ := Prod.mk.inj hrun
  exact ⟨rfl, (List.cons.inj hrest).2.symm⟩

namespace Respaced

variable {s s' : List Char}

theorem symm (hrespaced : Respaced s s') : Respaced s' s := by
  induction hrespaced with
  | ending hgap hgap' => exact .ending hgap' hgap
  | gap hgap hne hgap' hne' _ ih => exact .gap hgap' hne' hgap hne ih
  | plain hgap hquote _ ih => exact .plain hgap hquote ih
  | quoted hmark hinside _ ih => exact .quoted hmark hinside ih
  | unclosed hmark hnever => exact .unclosed hmark hnever

/-- Without the gaps in front the texts still differ in gaps alone. -/
theorem skipGaps (hrespaced : Respaced s s') :
    Respaced (Query.skipGaps s) (Query.skipGaps s') := by
  induction hrespaced with
  | ending hgap hgap' =>
      rw [hgap.skipGaps_eq_nil, hgap'.skipGaps_eq_nil]
      exact .ending isSpace_nil isSpace_nil
  | gap hgap _ hgap' _ _ ih =>
      rw [skipGaps_of_gap hgap, skipGaps_of_gap hgap']
      exact ih
  | plain hgap hquote hrest =>
      rw [skipGaps_cons hgap, skipGaps_cons hgap]
      exact .plain hgap hquote hrest
  | quoted hmark hinside hrest =>
      rw [List.cons_append, List.cons_append, skipGaps_cons hmark.not_isGap,
        skipGaps_cons hmark.not_isGap]
      exact .quoted hmark hinside hrest
  | unclosed hmark hnever =>
      rw [skipGaps_cons hmark.not_isGap]
      exact .unclosed hmark hnever

/-- Where one text has something other than a gap, the other has the same. -/
theorem cases_cons {c : Char} (hgap : ¬isGap c) (hrespaced : Respaced (c :: s) s') :
    (¬IsQuote c ∧ ∃ rest', s' = c :: rest' ∧ Respaced s rest') ∨
    (IsQuote c ∧ ∃ inside rest rest', IsInside c inside ∧ s = inside ++ c :: rest ∧
      s' = c :: inside ++ c :: rest' ∧ Respaced rest rest') ∨
    (IsQuote c ∧ NeverCloses c s ∧ s' = c :: s) := by
  generalize htext : c :: s = text at hrespaced
  cases hrespaced with
  | ending hspace _ =>
      exact absurd (hspace c (htext ▸ List.mem_cons_self)) hgap
  | @gap gap _ rest _ hspace hne _ _ _ =>
      obtain ⟨d, gap, rfl⟩ := List.exists_cons_of_ne_nil hne
      obtain ⟨rfl, -⟩ := List.cons.inj htext
      exact absurd (hspace c List.mem_cons_self) hgap
  | plain _ hquote hrest =>
      obtain ⟨rfl, rfl⟩ := List.cons.inj htext
      exact .inl ⟨hquote, _, rfl, hrest⟩
  | quoted hmark hinside hrest =>
      obtain ⟨rfl, rfl⟩ := List.cons.inj htext
      exact .inr (.inl ⟨hmark, _, _, _, hinside, rfl, rfl, hrest⟩)
  | unclosed hmark hnever =>
      obtain ⟨rfl, rfl⟩ := List.cons.inj htext
      exact .inr (.inr ⟨hmark, hnever, rfl⟩)

theorem eq_nil_iff_of_skipGaps (hrespaced : Respaced s s') :
    Query.skipGaps s = [] ↔ Query.skipGaps s' = [] := by
  have hforward : ∀ {s s'}, Respaced s s' → Query.skipGaps s = [] → Query.skipGaps s' = [] := by
    intro s s' hrespaced hnil
    have hrest := hrespaced.skipGaps.symm
    cases hskip : Query.skipGaps s' with
    | nil => rfl
    | cons c rest =>
        have hgap : ¬isGap c := by
          have hhead := List.head?_dropWhile_not isGap s'
          rw [show s'.dropWhile isGap = c :: rest from hskip] at hhead
          simpa using hhead
        rw [hnil, hskip] at hrest
        rcases hrest.cases_cons hgap with ⟨-, _, ⟨⟩, -⟩ | ⟨-, _, _, _, -, -, ⟨⟩, -⟩ | ⟨-, -, ⟨⟩⟩
  exact ⟨hforward hrespaced, hforward hrespaced.symm⟩

/-- A piece without gaps and quotes may be put in front of both texts. -/
theorem prepend {piece : List Char} (hpiece : ∀ c ∈ piece, ¬isGap c ∧ ¬IsQuote c)
    (hrespaced : Respaced s s') : Respaced (piece ++ s) (piece ++ s') := by
  induction piece with
  | nil => exact hrespaced
  | cons c piece ih =>
      obtain ⟨⟨hgap, hquote⟩, hrest⟩ := List.forall_mem_cons.mp hpiece
      exact .plain hgap hquote (ih hrest)

/-- If it stands in front of one of them, so it does in front of the other. -/
theorem of_append {piece rest : List Char} (hpiece : ∀ c ∈ piece, ¬isGap c ∧ ¬IsQuote c)
    (hrespaced : Respaced (piece ++ rest) s') :
    ∃ rest', s' = piece ++ rest' ∧ Respaced rest rest' := by
  induction piece generalizing s' with
  | nil => exact ⟨s', rfl, hrespaced⟩
  | cons c piece ih =>
      obtain ⟨⟨hgap, hplain⟩, hpiece⟩ := List.forall_mem_cons.mp hpiece
      rcases hrespaced.cases_cons hgap with ⟨-, tail, rfl, htail⟩ | ⟨hquote, -⟩ | ⟨hquote, -⟩
      · obtain ⟨rest', rfl, hrest⟩ := ih hpiece htail
        exact ⟨rest', rfl, hrest⟩
      · exact absurd hquote hplain
      · exact absurd hquote hplain

end Respaced

/-! ### Tokens -/

/-- A token is a piece without gaps and quotes, or a literal. -/
theorem Spelled.isPlain_or_quoted {token : Token} {written : List Char}
    (hspelled : Spelled token written) :
    (written ≠ [] ∧ ∀ c ∈ written, ¬isGap c ∧ ¬IsQuote c) ∨
      ∃ mark inside, IsQuote mark ∧ IsInside mark inside ∧ written = mark :: inside ++ [mark] ∧
        token = .value (.quoted mark inside) := by
  cases hspelled with
  | symbol hmem =>
      have hsymbols : ∀ entry ∈ Token.symbols, entry.1 ≠ [] ∧
          entry.1.all fun c => ¬isGap c ∧ ¬(c = '"' ∨ c = '\x27') := by decide
      obtain ⟨hne, hplain⟩ := hsymbols _ hmem
      refine .inl ⟨hne, fun c hc => ?_⟩
      have hplain := of_decide_eq_true (List.all_eq_true.mp hplain c hc)
      exact hplain
  | run hne hword =>
      refine .inl ⟨hne, fun c hc => ⟨?_, fun hquote => hquote.not_isWordChar (hword c hc)⟩⟩
      have hc := hword c hc
      simp only [isWordChar, Bool.and_eq_true, Bool.not_eq_true'] at hc
      simp [hc.1]
  | quoted hmark hinside => exact .inr ⟨_, _, hmark, hinside, rfl, rfl⟩

namespace Respaced

variable {s s' : List Char}

/-- The token in front of one text stands in front of the other. -/
theorem token_read (hrespaced : Respaced s s') {token : Token} {rest : List Char}
    (hread : Lexeme.token.read s = some (token, rest)) :
    ∃ rest', Lexeme.token.read s' = some (token, rest') ∧ Respaced rest rest' := by
  obtain ⟨written, rfl, hspelled, hlongest⟩ := Lexeme.token_read_sound hread
  rcases hspelled.isPlain_or_quoted with ⟨hne, hplain⟩ | ⟨mark, inside, hmark, hinside, rfl, rfl⟩
  · obtain ⟨rest', rfl, hrest⟩ := hrespaced.of_append hplain
    refine ⟨rest', Lexeme.token_read_complete ⟨written, rfl, hspelled, ?_⟩, hrest⟩
    intro other longer hfront hother
    -- a longer token would be a piece as well, and stand in front of the first text
    rcases hother.isPlain_or_quoted with ⟨-, hlonger⟩ | ⟨mark, inside, hmark, -, rfl, -⟩
    · obtain ⟨more, hmore⟩ := hfront
      obtain ⟨more', hmore', -⟩ := (hmore ▸ hrespaced.symm).of_append hlonger
      exact hlongest other longer ⟨more', hmore'.symm⟩ hother
    · obtain ⟨c, written, rfl⟩ := List.exists_cons_of_ne_nil hne
      obtain ⟨more, hmore⟩ := hfront
      obtain ⟨rfl, -⟩ := List.cons.inj hmore
      exact absurd hmark (hplain _ List.mem_cons_self).2
  · rw [List.append_assoc] at hrespaced
    rcases hrespaced.cases_cons hmark.not_isGap with
      ⟨hplain, -⟩ | ⟨-, inside', before, rest', hinside', hs, rfl, hrest⟩ | ⟨-, hnever, -⟩
    · exact absurd hmark hplain
    · obtain ⟨rfl, rfl⟩ := hinside.eq_of_append hmark hinside' hs
      exact ⟨rest', Lexeme.token_read_of_quoted
        (Lexeme.quoted_read_eq_some_iff.mpr ⟨hmark, hinside, rfl⟩), hrest⟩
    · exact absurd rfl (hnever inside rest hinside)

/-- Both texts have the same tokens, and if something is left of one, so is of the other. -/
theorem split_eq (hrespaced : Respaced s s') :
    (split s).1 = (split s').1 ∧ ((split s).2 = [] ↔ (split s').2 = []) := by
  -- what is left behind a token is shorter, and again differs in gaps alone
  induction hlength : s.length using Nat.strong_induction_on generalizing s s' with
  | _ length ih =>
      cases hread : Lexeme.token.read (Query.skipGaps s) with
      | some found =>
          obtain ⟨token, rest⟩ := found
          obtain ⟨rest', hread', hrest⟩ := hrespaced.skipGaps.token_read hread
          have hshorter := Nat.lt_of_lt_of_le (Lexeme.token.shorter hread) (length_skipGaps_le s)
          obtain ⟨htokens, hleft⟩ := ih rest.length (hlength ▸ hshorter) hrest rfl
          rw [split_of_read hread, split_of_read hread', htokens]
          exact ⟨rfl, hleft⟩
      | none =>
          have hread' : Lexeme.token.read (Query.skipGaps s') = none := by
            rw [Option.eq_none_iff_forall_ne_some]
            rintro ⟨token, rest⟩ hsome
            obtain ⟨rest', hfound, -⟩ := hrespaced.symm.skipGaps.token_read hsome
            rw [hread] at hfound
            cases hfound
          rw [split_of_read_eq_none hread, split_of_read_eq_none hread']
          exact ⟨rfl, hrespaced.eq_nil_iff_of_skipGaps⟩

end Respaced

theorem RespacedText.split_eq {s s' : List Char} (hrespaced : RespacedText s s') :
    (split s).1 = (split s').1 ∧ ((split s).2 = [] ↔ (split s').2 = []) := by
  obtain ⟨before, inner, before', inner', rfl, rfl, hbefore, hbefore', hinner⟩ := hrespaced
  have hfront : ∀ {gap : List Char}, IsSpace gap → ∀ s, split (gap ++ s) = split s := by
    intro gap hgap s
    rw [← split_skipGaps, skipGaps_of_gap hgap, split_skipGaps]
  rw [hfront hbefore, hfront hbefore']
  exact hinner.split_eq

/-! ### Trees -/

/-- Both texts are read as the same tree of the grammar, if any. -/
theorem Outcome.query_found_of_respaced {s s' : List Char} (hrespaced : RespacedText s s') :
    (query s).found.map Prod.fst = (query s').found.map Prod.fst := by
  obtain ⟨htokens, hleft⟩ := hrespaced.split_eq
  simp only [query_found_of_tokens, Prod.ext_iff, htokens, hleft]

/-- Texts that differ in their gaps alone are read as the same tree, or both are empty, or both are
refused. -/
theorem parse_respaced {text text' : String}
    (hrespaced : RespacedText text.toList text'.toList) :
    (∃ node, parse text = .ok node ∧ parse text' = .ok node) ∨
    (parse text = .error .empty ∧ parse text' = .error .empty) ∨
    ∃ rejection rejection', parse text = .error (.rejected rejection) ∧
      parse text' = .error (.rejected rejection') := by
  have hclauses : ∀ clause, clauseOf text = .ok clause ↔ clauseOf text' = .ok clause := by
    intro clause
    rw [clauseOf_eq_ok_iff, clauseOf_eq_ok_iff, Outcome.query_found_of_respaced hrespaced]
  cases hclause : clauseOf text with
  | ok clause =>
      have hclause' := (hclauses clause).mp hclause
      cases clause with
      | none => exact .inr (.inl ⟨by simp [parse, hclause], by simp [parse, hclause']⟩)
      | some clause =>
          exact .inl ⟨clause.toNode, by simp [parse, hclause], by simp [parse, hclause']⟩
  | error rejection =>
      cases hclause' : clauseOf text' with
      | ok clause => simp [(hclauses clause).mpr hclause'] at hclause
      | error rejection' =>
          exact .inr (.inr ⟨rejection, rejection', by simp [parse, hclause],
            by simp [parse, hclause']⟩)

/-- Other gaps around a symbol and around the text; those in the quotes are kept. -/
theorem parse_respaced_two_gaps :
    RespacedText "age = 'two  gaps'".toList "\n\tage\r\n=  'two  gaps' ".toList ∧
    ∃ node, parse "age = 'two  gaps'" = .ok node ∧
      parse "\n\tage\r\n=  'two  gaps' " = .ok node := by
  have hspace : ∀ gap ∈ [['\n', '\t'], ['\r', '\n'], [' ', ' ']], IsSpace gap := by
    simp [IsSpace, isGap]
  have hinside : IsInside '\x27' "two  gaps".toList :=
    (Lexeme.quotedRun_sound '\x27' "two  gaps".toList).2
  have hliteral := Respaced.quoted (.inr rfl) hinside (.ending isSpace_nil isSpace_space)
  have hsymbol := Respaced.gap isSpace_space (by simp) (hspace ['\r', '\n'] (by simp)) (by simp)
    (.plain (by decide) (by simp [IsQuote] : ¬IsQuote '=')
      (.gap isSpace_space (by simp) (hspace [' ', ' '] (by simp)) (by simp) hliteral))
  have hname : ∀ c ∈ ['a', 'g', 'e'], ¬isGap c ∧ ¬IsQuote c := by simp [isGap, IsQuote]
  have hrespaced : RespacedText "age = 'two  gaps'".toList
      "\n\tage\r\n=  'two  gaps' ".toList :=
    ⟨[], _, ['\n', '\t'], _, by decide, by decide, isSpace_nil, hspace _ (by simp),
      hsymbol.prepend hname⟩
  refine ⟨hrespaced, ?_⟩
  have hread : (parse "age = 'two  gaps'").toBool := by decide +kernel
  rcases parse_respaced hrespaced with hsame | ⟨hempty, -⟩ | ⟨rejection, _, hrejected, -⟩
  · exact hsame
  · rw [hempty] at hread
    cases hread
  · rw [hrejected] at hread
    cases hread

end FieldSearch.Query
