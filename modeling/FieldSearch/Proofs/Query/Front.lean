import FieldSearch.Proofs.Query.Respacing

/-! Fronts of queries: what can be completed to a query. In front of every phrase that a rule of the
language asks for, the tokens can be completed, by a word and by closing the groups that are open.
The text in front of a place between two tokens has the same tokens also where something else
follows it, if that begins with a gap. -/

namespace FieldSearch.Query

open Sentence

/-- Behind these tokens, at the beginning of a query, there may be a phrase of the nonterminal: one
case for each place of a rule where it asks for a phrase. -/
inductive Awaits : Nonterminal → List Token → Prop
  | query : Awaits .disjunction []
  | firstConjunction {used} : Awaits .disjunction used → Awaits .conjunction used
  | alternatives {used first} : Awaits .disjunction used → Derives .conjunction first →
      Awaits .alternatives (used ++ first)
  | alternative {used} : Awaits .alternatives used → Awaits .conjunction (used ++ [.or])
  | furtherAlternatives {used member} : Awaits .alternatives used → Derives .conjunction member →
      Awaits .alternatives (used ++ [.or] ++ member)
  | firstNegation {used} : Awaits .conjunction used → Awaits .negation used
  | conditions {used first} : Awaits .conjunction used → Derives .negation first →
      Awaits .conditions (used ++ first)
  | joined {used} : Awaits .conditions used → Awaits .negation (used ++ [.and])
  | furtherJoined {used member} : Awaits .conditions used → Derives .negation member →
      Awaits .conditions (used ++ [.and] ++ member)
  | adjacent {used} : Awaits .conditions used → Awaits .negation used
  | furtherAdjacent {used member} : Awaits .conditions used → Derives .negation member →
      Awaits .conditions (used ++ member)
  | operand {used} : Awaits .negation used → Awaits .negation (used ++ [.not])
  | term {used} : Awaits .negation used → Awaits .term used
  | inner {used} : Awaits .term used → Awaits .disjunction (used ++ [.opening])

/-- As many tokens as close this many groups. -/
def closings (depth : Nat) : List Token :=
  List.replicate depth .closing

theorem cons_closings (depth : Nat) : Token.closing :: closings depth = closings (depth + 1) :=
  rfl

/-- Once the phrase is there, only open groups are left to close. -/
theorem Awaits.exists_sentence {nonterminal : Nonterminal} {used phrase : List Token}
    (hawaits : Awaits nonterminal used) (hderives : Derives nonterminal phrase) :
    ∃ depth, Derives .disjunction (used ++ phrase ++ closings depth) := by
  -- each place is reached from the one whose rule asks for it, with a longer phrase there
  induction hawaits generalizing phrase with
  | query => exact ⟨0, by simpa [closings] using hderives⟩
  | firstConjunction _ ih => simpa using ih (.disjunction hderives .noAlternative)
  | alternatives _ hfirst ih => simpa using ih (.disjunction hfirst hderives)
  | alternative _ ih => simpa using ih (.alternative hderives .noAlternative)
  | furtherAlternatives _ hmember ih => simpa using ih (.alternative hmember hderives)
  | firstNegation _ ih => simpa using ih (.conjunction hderives .noCondition)
  | conditions _ hfirst ih => simpa using ih (.conjunction hfirst hderives)
  | joined _ ih => simpa using ih (.joined hderives .noCondition)
  | furtherJoined _ hmember ih => simpa using ih (.joined hmember hderives)
  | adjacent _ ih => simpa using ih (.adjacent hderives .noCondition)
  | furtherAdjacent _ hmember ih => simpa using ih (.adjacent hmember hderives)
  | operand _ ih => simpa using ih (.negated hderives)
  | term _ ih => exact ih (.affirmed hderives)
  | inner _ ih =>
      obtain ⟨depth, hsentence⟩ := ih (.group hderives)
      exact ⟨depth + 1, by simpa [← cons_closings] using hsentence⟩

/-! ### Fronts of sentences -/

/-- A word that may stand for any value. -/
def anyWord : Token :=
  .value (.word ['a'])

/-- With a word behind them or without one, and with groups closed, the tokens are a sentence. -/
def IsFront (used : List Token) : Prop :=
  ∃ depth, Derives .disjunction (used ++ closings depth) ∨
    Derives .disjunction (used ++ anyWord :: closings depth)

/-- Behind a phrase that was asked for. -/
theorem Awaits.isFront_append {nonterminal : Nonterminal} {used phrase : List Token}
    (hawaits : Awaits nonterminal used) (hderives : Derives nonterminal phrase) :
    IsFront (used ++ phrase) :=
  (hawaits.exists_sentence hderives).imp fun _ => .inl

/-- Before the last value of a phrase that was asked for. -/
theorem Awaits.isFront_of_word {nonterminal : Nonterminal} {used : List Token}
    (hawaits : Awaits nonterminal used) (begun : List Token)
    (hderives : Derives nonterminal (begun ++ [anyWord])) : IsFront (used ++ begun) := by
  obtain ⟨depth, hsentence⟩ := hawaits.exists_sentence hderives
  exact ⟨depth, .inr (by simpa using hsentence)⟩

theorem derives_anyWord : Derives .term [anyWord] :=
  .value

/-- Wherever a phrase may stand, the tokens are a front. -/
theorem Awaits.isFront {nonterminal : Nonterminal} {used : List Token}
    (hawaits : Awaits nonterminal used) : IsFront used := by
  have hnegation : Derives .negation [anyWord] := .affirmed derives_anyWord
  have hconjunction : Derives .conjunction [anyWord] := .conjunction hnegation .noCondition
  have hdisjunction : Derives .disjunction [anyWord] := .disjunction hconjunction .noAlternative
  rw [← List.append_nil used]
  cases nonterminal with
  | disjunction => exact hawaits.isFront_of_word [] hdisjunction
  | alternatives => exact hawaits.isFront_append .noAlternative
  | conjunction => exact hawaits.isFront_of_word [] hconjunction
  | conditions => exact hawaits.isFront_append .noCondition
  | negation => exact hawaits.isFront_of_word [] hnegation
  | term => exact hawaits.isFront_of_word [] derives_anyWord

/-! ### Places between tokens -/

/-- The tokens are cut from the front of the text, and this is left, with or without the gap in
front of it. -/
inductive Passed (text : List Char) : List Token → List Char → Prop
  | start : Passed text [] text
  | gap {used s} : Passed text used s → Passed text used (skipGaps s)
  | token {used s token rest} : Passed text used s → Lexeme.token.read s = some (token, rest) →
      Passed text (used ++ [token]) rest

/-- What has no gap and begins two texts that part at a gap begins what they share. -/
theorem prefix_of_no_gap {piece shared more : List Char} (hgap : ∀ c ∈ piece, ¬isGap c)
    (hpiece : piece <+: shared ++ ' ' :: more) : piece <+: shared := by
  rcases List.prefix_or_prefix_of_prefix hpiece (List.prefix_append shared _) with
    hshared | ⟨tail, rfl⟩
  · exact hshared
  · rw [List.prefix_append_right_inj] at hpiece
    cases tail with
    | nil => simp
    | cons c tail =>
        obtain ⟨rest, hrest⟩ := hpiece
        obtain ⟨rfl, -⟩ := List.cons.inj hrest
        exact absurd rfl (hgap ' ' (by simp))

/-- The token at the front of a text is still there if the text goes on in another way behind it,
from a gap on. -/
theorem Lexeme.token_read_of_shared {t : Token} {written shared rest : List Char}
    (hread : token.read (written ++ (shared ++ rest)) = some (t, shared ++ rest))
    (more : List Char) :
    token.read (written ++ (shared ++ ' ' :: more)) = some (t, shared ++ ' ' :: more) := by
  obtain ⟨written', heq, hspelled, hlongest⟩ := token_read_sound hread
  obtain rfl := List.append_cancel_right heq
  refine token_read_complete ⟨written, rfl, hspelled, fun other longer hfront hother => ?_⟩
  rcases hother.isPlain_or_quoted with ⟨-, hplain⟩ | ⟨mark, inside, hmark, hinside, rfl, -⟩
  · -- a longer piece would stand at the front of the first text as well
    rw [← List.append_assoc] at hfront
    have hshared := prefix_of_no_gap (fun c hc => (hplain c hc).1) hfront
    refine hlongest other longer ?_ hother
    rw [← List.append_assoc]
    exact hshared.trans (List.prefix_append _ _)
  · -- the literal begins with the same mark, so it ends at the same one
    obtain ⟨behind, hbehind⟩ := hfront
    rcases hspelled.isPlain_or_quoted with
      ⟨hne, hplain⟩ | ⟨mark', inside', hmark', hinside', rfl, -⟩
    · obtain ⟨c, written, rfl⟩ := List.exists_cons_of_ne_nil hne
      obtain ⟨rfl, -⟩ := List.cons.inj hbehind
      exact absurd hmark (hplain mark (by simp)).2
    · simp only [List.cons_append, List.append_assoc, List.nil_append] at hbehind
      obtain ⟨rfl, htail⟩ := List.cons.inj hbehind
      obtain ⟨rfl, -⟩ := hinside.eq_of_append hmark hinside' htail
      exact Nat.le_refl _

/-- Up to such a place the text has these tokens, also if it goes on in another way somewhere behind
that place, from a gap on. -/
theorem Passed.exists_cuts {text s : List Char} {used : List Token} (hpassed : Passed text used s) :
    ∃ before, text = before ++ s ∧
      ∀ shared, shared <+: s → ∀ more, Cuts before used (shared ++ ' ' :: more) := by
  induction hpassed with
  | start => exact ⟨[], rfl, fun shared _ more => Cuts.space isSpace_nil⟩
  | @gap used s _ ih =>
      obtain ⟨before, rfl, hcuts⟩ := ih
      have hspace : IsSpace (s.takeWhile isGap) := fun c => List.mem_takeWhile_imp
      have hs : s = s.takeWhile isGap ++ skipGaps s := by simp [skipGaps]
      refine ⟨before ++ s.takeWhile isGap, by rw [List.append_assoc, ← hs], ?_⟩
      intro shared hshared more
      have hlonger : s.takeWhile isGap ++ shared <+: s := by
        conv => rhs; rw [hs]
        exact (List.prefix_append_right_inj _).mpr hshared
      have hbefore := hcuts _ hlonger more
      rw [List.append_assoc] at hbefore
      simpa using hbefore.append (.space hspace)
  | @token used s token rest _ hread ih =>
      obtain ⟨before, rfl, hcuts⟩ := ih
      obtain ⟨written, rfl, -⟩ := Lexeme.token_read_sound hread
      refine ⟨before ++ written, by simp, ?_⟩
      rintro shared ⟨behind, rfl⟩ more
      have hbefore := hcuts (written ++ shared) (by simp) more
      rw [List.append_assoc] at hbefore
      exact hbefore.append (.of_read (Lexeme.token_read_of_shared hread more))

/-! ### Fronts of texts -/

theorem split_closings (depth : Nat) :
    split (List.replicate depth ')') = (closings depth, []) := by
  induction depth with
  | zero =>
      rw [List.replicate_zero, split_of_read_eq_none rfl]
      rfl
  | succ depth ih =>
      have hmark : Cuts [')'] [.closing] (List.replicate depth ')') :=
        .mark (by decide) (by decide)
      rw [Cuts, ih] at hmark
      exact hmark

theorem split_anyWord (depth : Nat) :
    split ('a' :: List.replicate depth ')') = (anyWord :: closings depth, []) := by
  have hstops : Stops (List.replicate depth ')') := by
    cases depth with
    | zero => exact stops_nil
    | succ depth => exact stops_closing _
  have hword : Cuts ['a'] [anyWord] (List.replicate depth ')') :=
    .run (by simp) (List.all_eq_true.mp (by decide)) hstops
  rw [Cuts, split_closings] at hword
  exact hword

/-- At a place behind the front of a sentence, the text can go on so that it is a query. -/
theorem Passed.exists_isQuery {text s : List Char} {used : List Token}
    (hpassed : Passed text used s) (hfront : IsFront used) :
    ∃ before, text = before ++ s ∧ ∃ more, IsQuery (before ++ more) := by
  obtain ⟨before, rfl, hcuts⟩ := hpassed.exists_cuts
  refine ⟨before, rfl, ?_⟩
  have hquery : ∀ {ending tokens}, split ending = (tokens, []) →
      Derives .disjunction (used ++ tokens) → IsQuery (before ++ ' ' :: ending) := by
    intro ending tokens hending hderives
    have hsplit := hcuts [] List.nil_prefix ending
    rw [List.nil_append, Cuts, ← split_skipGaps (' ' :: ending)] at hsplit
    rw [show skipGaps (' ' :: ending) = skipGaps ending from rfl, split_skipGaps, hending] at hsplit
    exact ⟨_, split_eq_iff.mp hsplit, hderives⟩
  obtain ⟨depth, hclosed | hword⟩ := hfront
  · exact ⟨_, hquery (split_closings depth) hclosed⟩
  · exact ⟨_, hquery (split_anyWord depth) hword⟩

end FieldSearch.Query
