import FieldSearch.Proofs.Query.Agreement

/-! The language of queries. A text is a query if its tokens are a sentence, and it is empty if
there are no tokens. The end of the text is all that is asked for behind what the grammar finds, so
nothing is accepted of which only the front is a sentence. -/

namespace FieldSearch.Query

/-- The text can be cut into tokens, and these are a sentence. -/
def IsQuery (s : List Char) : Prop :=
  ∃ tokens, Splits s tokens ∧ Derives .disjunction tokens

theorem skipGaps_eq_nil_iff {s : List Char} : skipGaps s = [] ↔ split s = ([], []) := by
  cases hread : Lexeme.token.read (skipGaps s) with
  | none => simp [split_of_read_eq_none hread]
  | some found =>
      obtain ⟨t, r⟩ := found
      have hshorter := Lexeme.token.shorter hread
      have hne : skipGaps s ≠ [] := List.ne_nil_of_length_pos (by omega)
      simp [split_of_read hread, hne]

/-- A text is cut in one way only. -/
theorem Splits.unique {s : List Char} {tokens others : List Token} (hsplits : Splits s tokens)
    (hothers : Splits s others) : tokens = others := by
  rw [← split_eq_iff] at hsplits hothers
  exact congrArg Prod.fst (hsplits.symm.trans hothers)

namespace Outcome

theorem atEnd_found (s : List Char) :
    (atEnd s).found = if s = [] then some ((), [.matched .eoi 0 0 []]) else none := by
  cases s <;> rfl

/-- What a whole text is read as, if nothing is left behind it. -/
theorem query_found (s : List Char) :
    (query s).found.map Prod.fst =
      match (Grammar.disjunction (skipGaps s)).found with
      | some found => if skipGaps found.rest.chars = [] then some (some found.value) else none
      | none => if skipGaps s = [] then some none else none := by
  dsimp only [query]
  cases (Grammar.disjunction (skipGaps s)).found with
  | none =>
      dsimp only
      rw [atEnd_found]
      split <;> rfl
  | some found =>
      dsimp only
      rw [atEnd_found]
      split <;> rfl

/-- What a whole text is read as depends on its tokens and on what is left where they end. -/
theorem query_found_of_tokens (s : List Char) :
    (query s).found.map Prod.fst =
      match Sentence.disjunction? (split s).1 with
      | some (clause, rest) =>
        if (rest, (split s).2) = ([], []) then some (some clause) else none
      | none => if split s = ([], []) then some none else none := by
  have hagrees := Grammar.disjunction_agrees (skipGaps s) (skipGaps_skipGaps s)
  rw [split_skipGaps] at hagrees
  rw [query_found]
  cases hread : (Grammar.disjunction (skipGaps s)).found with
  | none =>
      rw [hagrees.none_iff.mp hread]
      simp only [skipGaps_eq_nil_iff]
  | some found =>
      obtain ⟨hfound, hleft⟩ := hagrees.eq_some hread
      rw [split_skipGaps] at hleft
      rw [hfound]
      simp only [skipGaps_eq_nil_iff, ← hleft]

end Outcome

theorem clauseOf_eq_ok_iff {text : String} {clause : Option Clause} :
    clauseOf text = .ok clause ↔
      (Outcome.query text.toList).found.map Prod.fst = some clause := by
  unfold clauseOf
  cases hfound : (Outcome.query text.toList).found with
  | none => simp [hfound]
  | some found => simp [hfound]

/-- A text has a grammar tree if and only if its tokens are a sentence, and then it has the tree of
the sentence. -/
theorem clauseOf_eq_some_iff {text : String} {clause : Clause} :
    clauseOf text = .ok (some clause) ↔
      ∃ tokens, Splits text.toList tokens ∧ Sentence.disjunction? tokens = some (clause, []) := by
  rw [clauseOf_eq_ok_iff, Outcome.query_found_of_tokens]
  constructor
  · intro hclause
    split at hclause
    next found rest hread =>
        split at hclause
        next hend =>
            cases hclause
            obtain ⟨rfl, hleft⟩ := Prod.mk.inj hend
            exact ⟨_, split_eq_iff.mp (Prod.ext rfl hleft), hread⟩
        next => cases hclause
    next =>
        split at hclause <;> cases hclause
  · rintro ⟨tokens, hsplits, hread⟩
    rw [← split_eq_iff] at hsplits
    simp [hsplits, hread]

/-- A text has no tree and yet nothing wrong with it if and only if it is empty. -/
theorem clauseOf_eq_none_iff {text : String} :
    clauseOf text = .ok none ↔ Splits text.toList [] := by
  rw [clauseOf_eq_ok_iff, Outcome.query_found_of_tokens]
  constructor
  · intro hclause
    split at hclause
    next => split at hclause <;> cases hclause
    next =>
        split at hclause
        next hempty => exact split_eq_iff.mp hempty
        next => cases hclause
  · intro hsplits
    rw [← split_eq_iff] at hsplits
    have hnone : Sentence.disjunction? [] = none := by
      rw [Sentence.disjunction?_eq, Sentence.conjunction?_eq, Sentence.negation?_eq_none (by simp)]
      rfl
    simp [hsplits, hnone]

theorem isQuery_iff {text : String} :
    IsQuery text.toList ↔ ∃ clause, clauseOf text = .ok (some clause) := by
  constructor
  · rintro ⟨tokens, hsplits, hderives⟩
    obtain ⟨clause, hread⟩ := Sentence.disjunction?_eq_some_nil_iff.mpr hderives
    exact ⟨clause, clauseOf_eq_some_iff.mpr ⟨tokens, hsplits, hread⟩⟩
  · rintro ⟨clause, hclause⟩
    obtain ⟨tokens, hsplits, hread⟩ := clauseOf_eq_some_iff.mp hclause
    exact ⟨tokens, hsplits, Sentence.disjunction?_eq_some_nil_iff.mp ⟨clause, hread⟩⟩

/-- What is read is the tree that the grammar tree stands for. -/
theorem parse_eq_ok_iff {text : String} {node : Node} :
    parse text = .ok node ↔ ∃ clause, clauseOf text = .ok (some clause) ∧ clause.toNode = node := by
  unfold parse
  cases clauseOf text with
  | error rejection => simp
  | ok clause => cases clause <;> simp

theorem isQuery_iff_parse {text : String} :
    IsQuery text.toList ↔ ∃ node, parse text = .ok node := by
  rw [isQuery_iff]
  constructor
  · rintro ⟨clause, hclause⟩
    exact ⟨clause.toNode, parse_eq_ok_iff.mpr ⟨clause, hclause, rfl⟩⟩
  · rintro ⟨node, hparse⟩
    obtain ⟨clause, hclause, -⟩ := parse_eq_ok_iff.mp hparse
    exact ⟨clause, hclause⟩

/-- A text is accepted if and only if it is a query, it is called empty if and only if it has no
tokens, and every other text is rejected. -/
theorem parse_accepts (text : String) :
    ((∃ node, parse text = .ok node) ↔ IsQuery text.toList) ∧
    (parse text = .error .empty ↔ Splits text.toList []) ∧
    ((∃ rejection, parse text = .error (.rejected rejection)) ↔
      ¬IsQuery text.toList ∧ ¬Splits text.toList []) := by
  rw [isQuery_iff, ← clauseOf_eq_none_iff]
  unfold parse
  cases clauseOf text with
  | error rejection => simp
  | ok clause => cases clause <;> simp

end FieldSearch.Query
