import FieldSearch.Query.Parse
import Mathlib.Data.List.Induction
import Mathlib.Data.List.Infix
import Mathlib.Data.List.TakeWhile

/-! Places in a text, and the caret of a report under the line that is shown. The column counts all
characters of the line in front of the place. The line is shown without its line ends unless one of
them stands at the place, so the caret is right there; elsewhere it stands too far to the right by
as many characters as there are carriage returns in the line before it. -/

namespace FieldSearch.Query

/-- What stands behind the last line feed. -/
def lastLine (s : List Char) : List Char :=
  (s.reverse.takeWhile (· != '\n')).reverse

theorem lastLine_append_singleton (s : List Char) (c : Char) :
    lastLine (s ++ [c]) = if c = '\n' then [] else lastLine s ++ [c] := by
  unfold lastLine
  split_ifs with hc <;> simp [hc]

theorem not_lineFeed_of_mem_lastLine {s : List Char} {c : Char} (hc : c ∈ lastLine s) :
    c ≠ '\n' := by
  have hplain := List.mem_takeWhile_imp (List.mem_reverse.mp hc)
  simpa using hplain

/-! ### Lines and columns -/

/-- The place behind one more character. -/
def Place.next (place : Place) (c : Char) : Place :=
  if c = '\n' then ⟨place.line + 1, 1⟩ else ⟨place.line, place.column + 1⟩

/-- A carriage return right before a line feed makes no difference, since the column begins again
behind the line feed. -/
theorem Place.walk_eq_foldl (place : Place) (s : List Char) :
    place.walk s = s.foldl next place := by
  fun_induction walk place s with
  | case1 => rfl
  | case2 place r ih => simpa [next] using ih
  | case3 place r ih => simpa [next] using ih
  | case4 place c r hreturn hfeed ih =>
      have hc : c ≠ '\n' := by
        rintro rfl
        exact hfeed rfl
      simpa [next, hc] using ih

theorem Place.after_append_singleton (before : List Char) (c : Char) :
    after (before ++ [c]) = (after before).next c := by
  simp [after, walk_eq_foldl]

/-- The line is one more than the line feeds before the place, the column one more than the
characters behind the last of them. -/
theorem Place.after_eq (before : List Char) :
    after before = ⟨before.count '\n' + 1, (lastLine before).length + 1⟩ := by
  induction before using List.reverseRecOn with
  | nil => rfl
  | append_singleton before c ih =>
      rw [after_append_singleton, ih, lastLine_append_singleton, next]
      split_ifs with hc <;> simp [hc]

/-! ### The line that is shown -/

theorem lineAround_nil (before : List Char) : lineAround before [] = lastLine before := by
  simp [lineAround, lastLine]

/-- The character at the place stands in the line behind those before the place. -/
theorem lineAround_cons (before rest : List Char) (c : Char) :
    ∃ behind, lineAround before (c :: rest) = lastLine before ++ c :: behind := by
  unfold lineAround lastLine
  by_cases hc : c = '\n' <;> simp [hc]

theorem showLineEnds_append (visible : Bool) (line more : List Char) :
    showLineEnds visible (line ++ more) =
      showLineEnds visible line ++ showLineEnds visible more := by
  cases visible <;> simp [showLineEnds]

/-- Without its line ends a line is shorter by its carriage returns. -/
theorem length_showLineEnds_lastLine (before : List Char) :
    (showLineEnds false (lastLine before)).length + (lastLine before).count '\r' =
      (lastLine before).length := by
  have hreturns : (lastLine before).count '\r' = (lastLine before).countP isLineEnd := by
    refine List.countP_congr fun c hc => ?_
    simp [isLineEnd, not_lineFeed_of_mem_lastLine hc]
  calc (showLineEnds false (lastLine before)).length + (lastLine before).count '\r'
    _ = ((lastLine before).filter (!isLineEnd ·)).length +
          ((lastLine before).filter isLineEnd).length := by
        rw [hreturns, List.countP_eq_length_filter]
        rfl
    _ = (lastLine before).length := by
        have hparts := @List.length_eq_countP_add_countP _ isLineEnd (lastLine before)
        simp only [List.countP_eq_length_filter, decide_not, Bool.decide_eq_true] at hparts
        omega

/-- A character that ends no line is shown behind what is shown of the line before it. -/
theorem getElem?_shown_of_plain {c : Char} (hc : ¬isLineEnd c) (before rest : List Char) :
    (showLineEnds false (lineAround before (c :: rest)))[
      (showLineEnds false (lastLine before)).length]? = some c := by
  obtain ⟨behind, hline⟩ := lineAround_cons before rest c
  rw [hline, showLineEnds_append, List.getElem?_append_right (Nat.le_refl _), Nat.sub_self]
  simp [showLineEnds, hc]

/-- If line ends are visible, the picture of every character stands where the character does. -/
theorem getElem?_shown_of_visible (c : Char) (before rest : List Char) :
    (showLineEnds true (lineAround before (c :: rest)))[(lastLine before).length]? =
      (showLineEnds true [c]).head? := by
  obtain ⟨behind, hline⟩ := lineAround_cons before rest c
  rw [hline]
  simp [showLineEnds]

/-! ### Carets -/

theorem clauseOf_eq_error {text : String} {rejection : Rejection}
    (hrejected : clauseOf text = .error rejection) :
    rejection = .ofFailure text.toList
      (.ofAttempts text.toList.length (Outcome.query text.toList).attempts) := by
  unfold clauseOf at hrejected
  dsimp only at hrejected
  split at hrejected
  · cases hrejected
  · cases hrejected
    rfl

theorem parse_eq_rejected_iff {text : String} {rejection : Rejection} :
    parse text = .error (.rejected rejection) ↔ clauseOf text = .error rejection := by
  unfold parse
  cases clauseOf text with
  | error other => simp
  | ok clause => cases clause <;> simp

/-- How many blanks there are before the caret of the report. -/
def Rejection.caret (rejection : Rejection) : Nat :=
  rejection.place.column - 1

/-- Under a text that is rejected the caret stands right at a line end, whose picture is shown, and
is off at other characters and at the end of the text: by the carriage returns in the line before
it, which count as columns but are not shown. -/
theorem parse_rejected_caret {text : String} {rejection : Rejection}
    (hrejected : parse text = .error (.rejected rejection)) :
    ∃ before rest, text.toList = before ++ rest ∧ rejection.place = .after before ∧
      (∀ c ∈ rest.head?, ¬isLineEnd c → ∃ shown,
        rejection.caret = shown + (lastLine before).count '\r' ∧
        rejection.snippet.toList[shown]? = some c) ∧
      (rest.head? = some '\n' → rejection.snippet.toList[rejection.caret]? = some '␊') ∧
      (rest.head? = some '\r' → rejection.snippet.toList[rejection.caret]? = some '␍') ∧
      (rest = [] →
        rejection.caret = rejection.snippet.toList.length + (lastLine before).count '\r') := by
  rw [parse_eq_rejected_iff] at hrejected
  obtain rfl := clauseOf_eq_error hrejected
  generalize Failure.ofAttempts _ _ = failure
  generalize text.toList = s
  refine ⟨s.take (s.length - failure.after), s.drop (s.length - failure.after),
    (List.take_append_drop _ _).symm, rfl, ?_⟩
  simp only [Rejection.ofFailure, Rejection.caret, Place.after_eq, Nat.add_sub_cancel,
    String.toList_ofList]
  generalize s.take (s.length - failure.after) = before
  generalize s.drop (s.length - failure.after) = rest
  have hlength := length_showLineEnds_lastLine before
  refine ⟨?_, ?_, ?_, ?_⟩
  · rintro c hc hplain
    obtain ⟨rest, rfl⟩ := List.head?_eq_some_iff.mp hc
    refine ⟨_, hlength.symm, ?_⟩
    simpa [hplain] using getElem?_shown_of_plain hplain before rest
  · intro hfeed
    obtain ⟨rest, rfl⟩ := List.head?_eq_some_iff.mp hfeed
    exact getElem?_shown_of_visible '\n' before rest
  · intro hreturn
    obtain ⟨rest, rfl⟩ := List.head?_eq_some_iff.mp hreturn
    exact getElem?_shown_of_visible '\r' before rest
  · rintro rfl
    rw [lineAround_nil]
    exact hlength.symm

/-- A parenthesis that nothing opens, behind a carriage return. -/
theorem parse_return_closing : parse "\r)" = .error (.rejected
    ⟨.expected [.eoi, .negation], ⟨1, 2⟩, ")"⟩) := by
  decide +kernel

/-- The carriage return is a column, but the parenthesis is shown as the first character. -/
theorem parse_rejected_caret_behind_return : ∃ rejection,
    parse "\r)" = .error (.rejected rejection) ∧ rejection.place = ⟨1, 2⟩ ∧
    rejection.caret = 0 + 1 ∧ rejection.snippet.toList[0]? = some ')' := by
  refine ⟨_, parse_return_closing, rfl, ?_⟩
  obtain ⟨before, rest, htext, hplace, hplain, -⟩ := parse_rejected_caret parse_return_closing
  have honly : ∀ front ∈ "\r)".toList.inits, (⟨1, 2⟩ : Place) = .after front →
      front = ['\r'] := by decide
  obtain rfl := honly before ((List.mem_inits _ _).mpr ⟨rest, htext.symm⟩) hplace
  obtain rfl : [')'] = rest := by simpa using htext
  obtain ⟨shown, hcaret, hshown⟩ := hplain ')' rfl (by decide)
  obtain rfl : 0 = shown := by
    change 0 + 1 = shown + 1 at hcaret
    omega
  exact ⟨hcaret, hshown⟩

/-- So the caret stands behind the line that is shown, and under no character. -/
theorem parse_rejected_off_caret : ∃ rejection, parse "\r)" = .error (.rejected rejection) ∧
    rejection.place = .after ['\r'] ∧ "\r)".toList = ['\r'] ++ [')'] ∧ ¬isLineEnd ')' ∧
    rejection.snippet = ")" ∧ rejection.caret = 1 ∧
    rejection.snippet.toList[rejection.caret]? = none :=
  ⟨_, parse_return_closing, rfl, by decide, by decide, rfl, rfl, by decide⟩

end FieldSearch.Query
