import FieldSearch.Field.BindValue
import FieldSearch.Proofs.Calendar.Texts

/-! Literals of bound values. Quotes inside are doubled, so a literal ends where a quote stands
alone and tells the text that it shows. It does not tell what kind of value shows that text, nor the
fraction of a second, which timestamps lose in SQL. -/

namespace FieldSearch.BindValue

/-! ### Doubled quotes -/

theorem escaped_cons_quote (s : List Char) :
    escaped ('\x27' :: s) = '\x27' :: '\x27' :: escaped s :=
  rfl

theorem escaped_cons {c : Char} (hc : c ≠ '\x27') (s : List Char) :
    escaped (c :: s) = c :: escaped s := by
  simp [escaped, hc]

/-- Without quotes there is nothing to double. -/
theorem escaped_eq_self {s : List Char} (hquote : '\x27' ∉ s) : escaped s = s := by
  induction s with
  | nil => rfl
  | cons c s ih =>
      rw [List.mem_cons, not_or] at hquote
      rw [escaped_cons (Ne.symm hquote.1), ih hquote.2]

/-- Two quotes look the same from both sides. -/
theorem reverse_escaped (s : List Char) : (escaped s).reverse = escaped s.reverse := by
  simp only [escaped, List.reverse_flatMap]
  congr 1
  funext c
  by_cases hc : c = '\x27' <;> simp [hc]

/-- Reads what stands between quotes, behind the opening one: two quotes are one, and the first that
stands alone closes the literal. What follows it is returned as well. -/
def readEscaped : List Char → Option (List Char × List Char)
  | [] => none
  | '\x27' :: '\x27' :: s => (readEscaped s).map fun (inside, rest) => ('\x27' :: inside, rest)
  | '\x27' :: rest => some ([], rest)
  | c :: s => (readEscaped s).map fun (inside, rest) => (c :: inside, rest)

theorem readEscaped_escaped (s : List Char) {rest : List Char} (hrest : rest.head? ≠ some '\x27') :
    readEscaped (escaped s ++ '\x27' :: rest) = some (s, rest) := by
  induction s with
  | nil =>
      cases rest with
      | nil => rfl
      | cons c rest =>
          have hc : c ≠ '\x27' := by simpa using hrest
          simp [escaped, readEscaped, hc]
  | cons c s ih =>
      by_cases hc : c = '\x27'
      · obtain rfl := hc
        simp [escaped_cons_quote, readEscaped, ih]
      · simp [escaped_cons hc, readEscaped, hc, ih]

/-- What is escaped ends at the first quote that is not doubled. -/
theorem escaped_append_inj {s t rest rest' : List Char} (hrest : rest.head? ≠ some '\x27')
    (hrest' : rest'.head? ≠ some '\x27')
    (heq : escaped s ++ '\x27' :: rest = escaped t ++ '\x27' :: rest') : s = t ∧ rest = rest' := by
  have hread := readEscaped_escaped s hrest
  rw [heq, readEscaped_escaped t hrest'] at hread
  simpa [eq_comm] using hread

theorem escaped_injective : Function.Injective escaped := by
  intro s t heq
  have hclosed : escaped s ++ ['\x27'] = escaped t ++ ['\x27'] := by rw [heq]
  exact (escaped_append_inj (by simp) (by simp) hclosed).1

/-! ### What literals tell -/

/-- The text that a literal has between its quotes. -/
def shown : BindValue → String
  | string text => text
  | date day => day.text
  | timestamp instant => instant.sqlText

theorem toList_inQuotes (s : List Char) : (inQuotes s).toList = '\x27' :: s ++ ['\x27'] :=
  String.toList_ofList

theorem toList_literal (value : BindValue) :
    value.literal.toList = '\x27' :: escaped value.shown.toList ++ ['\x27'] := by
  cases value with
  | string text => exact toList_inQuotes (escaped text.toList)
  | date day =>
      have hquote := day.not_mem_text (c := '\x27') (by decide) (by decide) (by decide)
      rw [literal, shown, toList_inQuotes, escaped_eq_self hquote]
  | timestamp instant =>
      have hquote := instant.not_mem_sqlText (c := '\x27') (by decide) (by decide)
      rw [literal, shown, toList_inQuotes, escaped_eq_self hquote]

theorem literal_eq_iff {value value' : BindValue} :
    value.literal = value'.literal ↔ value.shown = value'.shown := by
  rw [← String.toList_inj, toList_literal, toList_literal]
  simp [escaped_injective.eq_iff, String.toList_inj]

/-- Two values that nobody tells apart in SQL: the same value, timestamps within one second, or a
string that is the text of a date or of a timestamp. -/
def ShownAlike : BindValue → BindValue → Prop
  | string text, string text' => text = text'
  | date day, date day' => day = day'
  | timestamp instant, timestamp instant' => instant.shownSecond = instant'.shownSecond
  | string text, date day => text = day.text
  | date day, string text => day.text = text
  | string text, timestamp instant => text = instant.sqlText
  | timestamp instant, string text => instant.sqlText = text
  | date _, timestamp _ => False
  | timestamp _, date _ => False

theorem shown_eq_iff {value value' : BindValue} :
    value.shown = value'.shown ↔ value.ShownAlike value' := by
  cases value with
  | string text => cases value' <;> rfl
  | date day =>
      cases value' with
      | string text => rfl
      | date day' => exact ⟨Calendar.Date.text_inj, congrArg Calendar.Date.text⟩
      | timestamp instant' => exact iff_false_intro (instant'.sqlText_ne_text day).symm
  | timestamp instant =>
      cases value' with
      | string text => rfl
      | date day' => exact iff_false_intro (instant.sqlText_ne_text day')
      | timestamp instant' => exact Calendar.Instant.sqlText_eq_iff

end FieldSearch.BindValue
