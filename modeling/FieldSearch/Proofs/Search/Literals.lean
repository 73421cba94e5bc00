import FieldSearch.Proofs.Search.Fingerprint

/-! Literals in a row. A literal tells where it ends, whatever stands in it, so a row of literals
with null characters between them falls apart in one way only. This is also so if the texts of the
literals have null characters and quotes of their own. -/

namespace FieldSearch

namespace BindValue

/-- Reads a literal from its opening quote on, and returns what follows it as well. -/
def readLiteral : List Char → Option (List Char × List Char)
  | '\x27' :: s => readEscaped s
  | _ => none

/-- A literal is read up to its closing quote if no other quote stands behind that. -/
theorem readLiteral_literal (value : BindValue) {rest : List Char}
    (hrest : rest.head? ≠ some '\x27') :
    readLiteral (value.literal.toList ++ rest) = some (value.shown.toList, rest) := by
  have hread := readEscaped_escaped value.shown.toList hrest
  simpa [toList_literal, readLiteral] using hread

end BindValue

namespace Search

/-- Parameters whose literals make the same text look alike one by one. -/
theorem literalsText_inj {params params' : List BindValue}
    (heq : literalsText params = literalsText params') :
    List.Forall₂ BindValue.ShownAlike params params' := by
  have hlast : ([] : List Char).getLast? ≠ some '\x27' := by simp
  have hbehind : [] ++ literalsText params = [] ++ literalsText params' := congrArg ([] ++ ·) heq
  exact (append_literalsText_inj hlast hlast hbehind).2

/-- Literals with a null character between any two of them. -/
def literalRow (params : List BindValue) : String :=
  "\x00".intercalate (params.map BindValue.literal)

/-- A row without the null character in front that parameters have behind a condition. -/
theorem literalsText_cons (param : BindValue) (params : List BindValue) :
    literalsText (param :: params) = '\x00' :: (literalRow (param :: params)).toList := by
  induction params generalizing param with
  | nil => simp [literalsText, literalRow]
  | cons next params ih =>
      have hrest := ih next
      simp only [literalsText, literalRow, List.flatMap_cons, List.map_cons,
        String.toList_intercalate] at hrest ⊢
      simp [hrest]

theorem literalRow_cons_ne_nil (param : BindValue) (params : List BindValue) :
    literalRow (param :: params) ≠ literalRow [] := by
  intro heq
  have htext := literalsText_cons param params
  rw [heq] at htext
  simp [literalsText, literalRow, BindValue.toList_literal] at htext

theorem literalRow_inj {params params' : List BindValue}
    (heq : literalRow params = literalRow params') :
    List.Forall₂ BindValue.ShownAlike params params' := by
  cases params with
  | nil =>
      cases params' with
      | nil => exact .nil
      | cons param' params' => exact absurd heq.symm (literalRow_cons_ne_nil param' params')
  | cons param params =>
      cases params' with
      | nil => exact absurd heq (literalRow_cons_ne_nil param params)
      | cons param' params' =>
          apply literalsText_inj
          rw [literalsText_cons, literalsText_cons, heq]

/-- Strings that look alike are the same. -/
theorem strings_eq_of_shownAlike {texts texts' : List String}
    (halike : List.Forall₂ BindValue.ShownAlike (texts.map .string) (texts'.map .string)) :
    texts = texts' := by
  rw [List.forall₂_map_left_iff, List.forall₂_map_right_iff] at halike
  rwa [← List.forall₂_eq_eq_eq]

/-- The literal of a string is read as that string, whatever follows but a quote. So strings are
told by the row of their literals, and by the text that they add to a fingerprint. -/
theorem literals_delimited :
    (∀ (text : String) (rest : List Char), rest.head? ≠ some '\x27' →
      BindValue.readLiteral ((BindValue.string text).literal.toList ++ rest) =
        some (text.toList, rest)) ∧
    (∀ texts texts' : List String,
      literalRow (texts.map .string) = literalRow (texts'.map .string) → texts = texts') ∧
    (∀ texts texts' : List String,
      literalsText (texts.map .string) = literalsText (texts'.map .string) → texts = texts') := by
  refine ⟨fun text rest hrest => ?_, fun texts texts' heq => ?_, fun texts texts' heq => ?_⟩
  · exact BindValue.readLiteral_literal (.string text) hrest
  · exact strings_eq_of_shownAlike (literalRow_inj heq)
  · exact strings_eq_of_shownAlike (literalsText_inj heq)

/-- Two strings, and a single one in which the quotes between them stand as well. -/
theorem literals_delimited_one_or_two :
    BindValue.readLiteral "'a''\x00''b' OR".toList = some ("a'\x00'b".toList, " OR".toList) ∧
    literalRow [.string "a'\x00'b"] ≠ literalRow [.string "a", .string "b"] ∧
    literalsText [.string "a'\x00'b"] ≠ literalsText [.string "a", .string "b"] := by
  obtain ⟨hread, hrow, htext⟩ := literals_delimited
  refine ⟨hread "a'\x00'b" " OR".toList (by decide), fun heq => ?_, fun heq => ?_⟩
  · exact absurd (hrow ["a'\x00'b"] ["a", "b"] heq) (by decide)
  · exact absurd (htext ["a'\x00'b"] ["a", "b"] heq) (by decide)

end Search

end FieldSearch
