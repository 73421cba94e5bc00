import FieldSearch.Definition.Sample
import FieldSearch.Proofs.Query.RoundTrip
import FieldSearch.Proofs.Text.White
import FieldSearch.Search

/-! Two notions of a blank text. A search takes a text for blank if it holds nothing but white space
of any kind, and then does not read it. The query language only skips the few gaps that are easy to
type, and takes any other white space for a part of a word. Where both agree, searching for a text
is searching for the tree that it is read as. -/

namespace FieldSearch

namespace Query

theorem isWhite_of_isGap {c : Char} (hgap : isGap c) : Text.isWhite c := by
  simp only [isGap, Bool.or_eq_true, beq_iff_eq] at hgap
  rcases hgap with ((rfl | rfl) | rfl) | rfl <;> decide

/-- White space that is skipped nowhere stands in words. -/
theorem isWordChar_of_isWhite {c : Char} (hwhite : Text.isWhite c) (hgap : ¬isGap c) :
    isWordChar c := by
  have hmarks : marks.all fun mark => !Text.isWhite mark := by decide
  have hmark : c ∉ marks := fun hmem => by simpa [hwhite] using List.all_eq_true.mp hmarks c hmem
  simp [isWordChar, hgap, hmark]

/-- No keyword has white space in it. -/
theorem ofRun_of_isWhite {run : List Char} {c : Char} (hmem : c ∈ run) (hwhite : Text.isWhite c) :
    Token.ofRun run = .value (.word run) := by
  rcases Token.ofRun_cases run with ⟨hkeyword, -⟩ | ⟨-, hword⟩
  · have hletters : (run.map Char.toLower).all fun d => !Text.isWhite d := by
      rcases Token.keyword?_eq_some hkeyword with ⟨h, -⟩ | ⟨h, -⟩ | ⟨h, -⟩ <;> rw [h] <;> decide
    have hlower := List.all_eq_true.mp hletters _ (List.mem_map_of_mem hmem)
    rw [Text.toLower_of_isWhite hwhite, hwhite] at hlower
    cases hlower
  · exact hword

/-- Without tokens there are only gaps. -/
theorem splits_nil_iff {s : List Char} : Splits s [] ↔ ∀ c ∈ s, isGap c := by
  constructor
  · intro hsplits
    cases hsplits with
    | nil hgap => exact hgap
  · exact Splits.nil

/-- A text is read as empty if there are only gaps in it. -/
theorem parse_eq_empty_iff {text : String} :
    parse text = .error .empty ↔ ∀ c ∈ text.toList, isGap c := by
  rw [← splits_nil_iff, ← clauseOf_eq_none_iff]
  unfold parse
  cases clauseOf text with
  | error rejection => simp
  | ok clause => cases clause <;> simp

/-- White space is cut into words, of which there are none if there are only gaps. -/
theorem splits_of_isWhite {s : List Char} (hwhite : ∀ c ∈ s, Text.isWhite c) :
    ∃ words : List (List Char), Splits s ((words.map .word).map .value) := by
  induction hlength : s.length using Nat.strong_induction_on generalizing s with
  | _ length ih =>
      have hs : s = s.takeWhile isGap ++ skipGaps s := by simp [skipGaps]
      have hgap : ∀ c ∈ s.takeWhile isGap, isGap c := fun c => List.mem_takeWhile_imp
      cases hskip : skipGaps s with
      | nil =>
          rw [hs, hskip, List.append_nil]
          exact ⟨[], .nil hgap⟩
      | cons c r =>
          have hc : ¬isGap c := by
            have hstop := List.head?_dropWhile_not isGap s
            unfold skipGaps at hskip
            simpa [hskip] using hstop
          have hall : ∀ d ∈ c :: r, Text.isWhite d := fun d hd =>
            hwhite d (by rw [hs, hskip]; exact List.mem_append_right _ hd)
          have hword := isWordChar_of_isWhite (hall c (by simp)) hc
          have hrun : Lexeme.wordRun? (c :: r) =
              some (c :: r.takeWhile isWordChar, r.dropWhile isWordChar) := by
            simp [Lexeme.wordRun?, hword]
          have htoken := Lexeme.token_read_sound (Lexeme.token_read_of_run hrun)
          rw [ofRun_of_isWhite (by simp) (hall c (by simp))] at htoken
          have hshorter : (r.dropWhile isWordChar).length < length := by
            have hle := length_dropWhile_le isWordChar r
            have hskipped := length_skipGaps_le s
            rw [hskip, List.length_cons] at hskipped
            omega
          have hrest : ∀ d ∈ r.dropWhile isWordChar, Text.isWhite d := fun d hd =>
            hall d (List.mem_cons_of_mem c ((List.dropWhile_sublist isWordChar).mem hd))
          obtain ⟨words, hwords⟩ := ih _ hshorter hrest rfl
          refine ⟨(c :: r.takeWhile isWordChar) :: words, ?_⟩
          rw [hs, hskip]
          exact .cons hgap htoken hwords

/-- Values behind one another are conditions, none of which has a connective. -/
theorem derives_values (literals : List Literal) : Derives .conditions (literals.map .value) := by
  induction literals with
  | nil => exact .noCondition
  | cons literal literals ih => exact .adjacent (.affirmed .value) ih

/-- White space that is not only gaps is a query, for the words in it. -/
theorem isQuery_of_isWhite {s : List Char} (hwhite : ∀ c ∈ s, Text.isWhite c)
    (hword : ∃ c ∈ s, ¬isGap c) : IsQuery s := by
  obtain ⟨words, hsplits⟩ := splits_of_isWhite hwhite
  cases words with
  | nil =>
      obtain ⟨c, hmem, hc⟩ := hword
      exact absurd (splits_nil_iff.mp hsplits c hmem) hc
  | cons word words =>
      have hconjunction :
          Derives .conjunction (.value (.word word) :: (words.map .word).map .value) :=
        .conjunction (.affirmed .value) (derives_values (words.map .word))
      refine ⟨_, hsplits, ?_⟩
      simpa using Derives.disjunction hconjunction .noAlternative

end Query

namespace Search

/-- Where there is something that is not blank, the text is searched for by its tree. -/
theorem ofQuery_of_not_blank {registry : Registry} {text : String} {node : Node}
    (hblank : ¬Text.isBlank text) (hparse : Query.parse text = .ok node) :
    ofQuery registry (some text) = (ofNode registry node).mapError .compile := by
  unfold ofQuery
  simp only [hblank, hparse, if_false, Bool.false_eq_true]
  cases ofNode registry node <;> rfl

theorem ofQuery_of_blank {registry : Registry} {text : String} (hblank : Text.isBlank text) :
    ofQuery registry (some text) = .ok matchAll := by
  simp [ofQuery, hblank]

/-- A text is searched for by the tree that it is read as, unless it is blank. Every text that is
read as empty is blank, and the others that are blank are read as words of white space. -/
theorem ofQuery_agrees (registry : Registry) (text : String) :
    (∀ node, Query.parse text = .ok node → (∃ c ∈ text.toList, ¬Text.isWhite c) →
      ofQuery registry (some text) = (ofNode registry node).mapError .compile) ∧
    (Query.parse text = .error .empty → ofQuery registry (some text) = .ok matchAll) ∧
    ((∀ c ∈ text.toList, Text.isWhite c) →
      ofQuery registry (some text) = .ok matchAll ∧
        ((∃ node, Query.parse text = .ok node) ↔ ∃ c ∈ text.toList, ¬Query.isGap c)) := by
  refine ⟨fun node hparse hsome => ?_, fun hempty => ?_, fun hwhite => ⟨?_, ?_⟩⟩
  · refine ofQuery_of_not_blank (fun hblank => ?_) hparse
    obtain ⟨c, hmem, hc⟩ := hsome
    exact hc (Text.isBlank_iff.mp hblank c hmem)
  · have hgaps := Query.parse_eq_empty_iff.mp hempty
    exact ofQuery_of_blank (Text.isBlank_iff.mpr fun c hc => Query.isWhite_of_isGap (hgaps c hc))
  · exact ofQuery_of_blank (Text.isBlank_iff.mpr hwhite)
  · constructor
    · rintro ⟨node, hparse⟩
      by_contra hnone
      have hgaps : ∀ c ∈ text.toList, Query.isGap c :=
        fun c hc => by_contra fun hgap => hnone ⟨c, hc, hgap⟩
      rw [Query.parse_eq_empty_iff.mpr hgaps] at hparse
      cases hparse
    · exact fun hword => Query.isQuery_iff_parse.mp (Query.isQuery_of_isWhite hwhite hword)

/-- A word, a gap, and a space that is no gap. -/
theorem ofQuery_agrees_ann :
    ofQuery Sample.people.registry (some "Ann") =
      .ok ⟨some "(people.name LIKE ?)", [.string "%Ann%"]⟩ ∧
    ofQuery Sample.people.registry (some " \t") = .ok matchAll ∧
    ofQuery Sample.people.registry (some "\u2003") = .ok matchAll ∧
    ∃ node, Query.parse "\u2003" = .ok node := by
  have hann : Query.parse "Ann" = .ok (.leaf "Ann") :=
    Query.parse_word (.bare (by decide) (by decide) (by decide))
  have hempty : Query.parse " \t" = .error .empty :=
    Query.parse_eq_empty_iff.mpr (List.all_eq_true.mp (by decide))
  obtain ⟨hword, -, -⟩ := ofQuery_agrees Sample.people.registry "Ann"
  obtain ⟨-, hgap, -⟩ := ofQuery_agrees Sample.people.registry " \t"
  obtain ⟨-, -, hspace⟩ := ofQuery_agrees Sample.people.registry "\u2003"
  obtain ⟨hblank, hread⟩ := hspace (List.all_eq_true.mp (by decide))
  exact ⟨hword _ hann ⟨'A', by decide, by decide⟩, hgap hempty, hblank,
    hread.mpr ⟨'\u2003', by decide, by decide⟩⟩

/-- A no-break space is read as a word, which is found in names, and yet every row is searched for
by it. -/
theorem ofQuery_no_break_space :
    (⟨"people", .utc, [{ name := "name", type := .string },
      { name := "born_on", type := .date }]⟩ : Builder).build = .ok Sample.people ∧
    Query.parse "\u00a0" = .ok (.leaf "\u00a0") ∧
    ofNode Sample.people.registry (.leaf "\u00a0") =
      .ok ⟨some "(people.name LIKE ?)", [.string "%\u00a0%"]⟩ ∧
    ofQuery Sample.people.registry (some "\u00a0") = .ok matchAll ∧
    ofQuery Sample.people.registry (some "\u00a0") ≠
      (ofNode Sample.people.registry (.leaf "\u00a0")).mapError .compile := by
  have hparse : Query.parse "\u00a0" = .ok (.leaf "\u00a0") :=
    Query.parse_word (.bare (by decide) (by decide) (by decide))
  have hnode : ofNode Sample.people.registry (.leaf "\u00a0") =
      .ok ⟨some "(people.name LIKE ?)", [.string "%\u00a0%"]⟩ := by rfl
  have hquery : ofQuery Sample.people.registry (some "\u00a0") = .ok matchAll :=
    ofQuery_of_blank (by decide)
  refine ⟨rfl, hparse, hnode, hquery, ?_⟩
  rw [hquery, hnode]
  simp [Except.mapError, matchAll]

end Search

end FieldSearch
