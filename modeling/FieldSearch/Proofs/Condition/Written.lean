import FieldSearch.Condition.Basic
import FieldSearch.Proofs.Text.Marks

/-! Condition texts and the trees they are texts of. Where columns are plain dotted names, a text is
read from the left without choice: a name holds no blank and no parenthesis, so what begins with a
parenthesis is a list or a negation and everything else is a test, and behind each member of a list
stand a connective or the end. Texts of plain trees followed by anything are equal only if the trees
are, and the rests. -/

namespace FieldSearch

/-- A character of an identifier: a letter, a digit, an underscore, a dollar sign, or anything
beyond ASCII. -/
def isIdentifierChar (c : Char) : Bool :=
  c.isAlphanum || c == '_' || c == '$' || 127 < c.toNat

/-- Identifiers with points between them. -/
def IsDottedName (text : String) : Prop :=
  ∀ part ∈ text.toList.splitOn '.', part ≠ [] ∧ part.all isIdentifierChar

instance (text : String) : Decidable (IsDottedName text) :=
  inferInstanceAs (Decidable (∀ part ∈ _, _))

namespace Condition

/-- The condition is made of tests of columns with dotted names, lists, and negations whose operand
stands in both places. -/
inductive IsPlain : Condition → Prop
  | test {column token} {op : Operator} : IsDottedName column → op.token? = some token →
      IsPlain (.test column token)
  | single {inner} : IsPlain inner → IsPlain (.single inner)
  | list {op first second rest} : IsPlain first → IsPlain second → (∀ c ∈ rest, IsPlain c) →
      IsPlain (.list op first second rest)
  | negation {operand} : IsPlain operand → IsPlain (.negation operand operand)

end Condition

/-! ### Reading a text from the left -/

/-- Splitting loses nothing but the marks. -/
theorem exists_mem_splitOn {α : Type} [DecidableEq α] {mark c : α} {xs : List α} (hmem : c ∈ xs)
    (hne : c ≠ mark) : ∃ part ∈ xs.splitOn mark, c ∈ part := by
  induction xs with
  | nil => cases hmem
  | cons x xs ih =>
      rw [List.splitOn_cons_eq_if_modifyHead]
      obtain ⟨part, parts, hparts⟩ := List.exists_cons_of_ne_nil (List.splitOn_ne_nil mark xs)
      rw [hparts] at ih ⊢
      rcases List.mem_cons.mp hmem with rfl | htail
      · simp [hne]
      · obtain ⟨found, hfound, hc⟩ := ih htail
        by_cases hx : x = mark
        · exact ⟨found, by simp [hx, hfound], hc⟩
        · rcases List.mem_cons.mp hfound with rfl | hlater
          · exact ⟨x :: found, by simp [hx], by simp [hc]⟩
          · exact ⟨found, by simp [hx, hlater], hc⟩

/-- A name holds nothing but identifiers and points. -/
theorem IsDottedName.not_mem {column : String} (hname : IsDottedName column) {c : Char}
    (hpoint : c ≠ '.') (hc : isIdentifierChar c = false) : c ∉ column.toList := by
  intro hmem
  obtain ⟨part, hpart, hin⟩ := exists_mem_splitOn hmem hpoint
  have hall := List.all_eq_true.mp (hname part hpart).2 c hin
  rw [hc] at hall
  cases hall

theorem Operator.token?_not_mem {op : Operator} {token : String} (htoken : op.token? = some token) :
    '?' ∉ token.toList := by
  cases op <;> cases htoken <;> decide

namespace Condition

/-- The text of a test tells its column and its token. -/
theorem test_sql_append_inj {column column' token token' : String} {op op' : Operator}
    (hcolumn : IsDottedName column) (hcolumn' : IsDottedName column')
    (htoken : op.token? = some token) (htoken' : op'.token? = some token') {rest rest' : List Char}
    (heq : (test column token).sql.toList ++ rest = (test column' token').sql.toList ++ rest') :
    test column token = test column' token' ∧ rest = rest' := by
  simp only [sql, String.toList_append, String.reduceToList, List.append_assoc, List.cons_append,
    List.nil_append] at heq
  obtain ⟨hname, hafter⟩ := append_cons_inj (hcolumn.not_mem (by decide) (by decide))
    (hcolumn'.not_mem (by decide) (by decide)) heq
  have hmark :
      (token.toList ++ [' ']) ++ '?' :: rest = (token'.toList ++ [' ']) ++ '?' :: rest' := by
    simpa using hafter
  obtain ⟨hend, hrest⟩ := append_cons_inj (by simpa using Operator.token?_not_mem htoken)
    (by simpa using Operator.token?_not_mem htoken') hmark
  obtain rfl := String.toList_inj.mp hname
  obtain rfl := String.toList_inj.mp (List.append_cancel_right hend)
  exact ⟨rfl, hrest⟩

/-! A list and a negation begin with a parenthesis. -/

theorem single_sql_append (inner : Condition) (rest : List Char) :
    (single inner).sql.toList ++ rest = '(' :: (inner.sql.toList ++ ')' :: rest) := by
  simp [sql]

theorem list_sql_append (op : Connective) (first second : Condition) (others : List Condition)
    (rest : List Char) :
    (list op first second others).sql.toList ++ rest =
      '(' :: (first.sql.toList ++ (op.separator.toList ++ (second.sql.toList ++
        ((sqlAfter op others).toList ++ ')' :: rest)))) := by
  simp [sql]

theorem negation_sql_append (negated nullCheck : Condition) (rest : List Char) :
    (negation negated nullCheck).sql.toList ++ rest =
      '(' :: 'N' :: 'O' :: 'T' :: '(' :: (negated.sql.toList ++ ')' :: ' ' :: 'O' :: 'R' :: ' ' ::
        (nullCheck.sql.toList ++ (" IS NULL)".toList ++ rest))) := by
  simp [sql]

/-- No test begins with a parenthesis, nor with a word right before one. -/
theorem test_sql_append_ne {column : String} (hcolumn : IsDottedName column) {token : String}
    (word : List Char) (hword : ' ' ∉ word) {rest rest' : List Char} :
    (test column token).sql.toList ++ rest ≠ word ++ '(' :: rest' := by
  simp only [sql, String.toList_append, String.reduceToList, List.append_assoc, List.cons_append,
    List.nil_append]
  exact append_cons_ne (by decide) (hcolumn.not_mem (by decide) (by decide)) hword

theorem test_sql_append_ne_open {column : String} (hcolumn : IsDottedName column) {token : String}
    {rest rest' : List Char} : (test column token).sql.toList ++ rest ≠ '(' :: rest' :=
  test_sql_append_ne hcolumn [] (by simp)

theorem IsPlain.sql_append_ne_not {condition : Condition} (hplain : condition.IsPlain)
    {rest rest' : List Char} :
    condition.sql.toList ++ rest ≠ 'N' :: 'O' :: 'T' :: '(' :: rest' := by
  cases hplain with
  | test hcolumn htoken => exact test_sql_append_ne hcolumn ['N', 'O', 'T'] (by decide)
  | single | list | negation => simp [sql]

theorem separator_eq_cons (op : Connective) : ∃ word, op.separator.toList = ' ' :: word := by
  cases op <;> exact ⟨_, rfl⟩

/-- The word of a connective tells the connective. -/
theorem separator_append_inj {op op' : Connective} {rest rest' : List Char}
    (heq : op.separator.toList ++ rest = op'.separator.toList ++ rest') :
    op = op' ∧ rest = rest' := by
  cases op <;> cases op' <;> simp_all [Connective.separator]

theorem sqlAfter_append_inj {op : Connective} {conditions conditions' : List Condition}
    (hinj : ∀ c ∈ conditions, ∀ {c' : Condition} {rest rest' : List Char}, c'.IsPlain →
      c.sql.toList ++ rest = c'.sql.toList ++ rest' → c = c' ∧ rest = rest')
    (hplain' : ∀ c' ∈ conditions', c'.IsPlain) {rest rest' : List Char}
    (heq : (sqlAfter op conditions).toList ++ ')' :: rest =
      (sqlAfter op conditions').toList ++ ')' :: rest') :
    conditions = conditions' ∧ rest = rest' := by
  obtain ⟨word, hword⟩ := separator_eq_cons op
  induction conditions generalizing conditions' with
  | nil =>
      cases conditions' with
      | nil => simpa [sqlAfter] using heq
      | cons c' conditions' => simp [sqlAfter, hword] at heq
  | cons c conditions ih =>
      cases conditions' with
      | nil => simp [sqlAfter, hword] at heq
      | cons c' conditions' =>
          simp only [sqlAfter, String.toList_append, List.append_assoc,
            List.append_cancel_left_eq] at heq
          obtain ⟨rfl, htail⟩ := hinj c (by simp) (hplain' c' (by simp)) heq
          obtain ⟨rfl, hrest⟩ := ih (fun c hc => hinj c (by simp [hc]))
            (fun c' hc' => hplain' c' (by simp [hc'])) htail
          exact ⟨rfl, hrest⟩

/-- Plain trees are told apart by their texts, whatever follows them. -/
theorem IsPlain.sql_append_inj {condition condition' : Condition} (hplain : condition.IsPlain)
    (hplain' : condition'.IsPlain) {rest rest' : List Char}
    (heq : condition.sql.toList ++ rest = condition'.sql.toList ++ rest') :
    condition = condition' ∧ rest = rest' := by
  induction hplain generalizing condition' rest rest' with
  | test hcolumn htoken =>
      cases hplain' with
      | test hcolumn' htoken' => exact test_sql_append_inj hcolumn hcolumn' htoken htoken' heq
      | single =>
          rw [single_sql_append] at heq
          exact absurd heq (test_sql_append_ne_open hcolumn)
      | list =>
          rw [list_sql_append] at heq
          exact absurd heq (test_sql_append_ne_open hcolumn)
      | negation =>
          rw [negation_sql_append] at heq
          exact absurd heq (test_sql_append_ne_open hcolumn)
  | single hinner ih =>
      rw [single_sql_append] at heq
      cases hplain' with
      | test hcolumn' => exact absurd heq.symm (test_sql_append_ne_open hcolumn')
      | single hinner' =>
          rw [single_sql_append] at heq
          obtain ⟨rfl, hclose⟩ := ih hinner' (List.cons.inj heq).2
          exact ⟨rfl, (List.cons.inj hclose).2⟩
      | @list op' _ _ _ hfirst' =>
          rw [list_sql_append] at heq
          obtain ⟨rfl, hclose⟩ := ih hfirst' (List.cons.inj heq).2
          obtain ⟨word, hword⟩ := separator_eq_cons op'
          simp [hword] at hclose
      | negation =>
          rw [negation_sql_append] at heq
          exact absurd (List.cons.inj heq).2 hinner.sql_append_ne_not
  | @list op _ _ _ hfirst hsecond _ ihfirst ihsecond ihothers =>
      rw [list_sql_append] at heq
      cases hplain' with
      | test hcolumn' => exact absurd heq.symm (test_sql_append_ne_open hcolumn')
      | single hinner' =>
          rw [single_sql_append] at heq
          obtain ⟨rfl, hclose⟩ := ihfirst hinner' (List.cons.inj heq).2
          obtain ⟨word, hword⟩ := separator_eq_cons op
          simp [hword] at hclose
      | list hfirst' hsecond' hothers' =>
          rw [list_sql_append] at heq
          obtain ⟨rfl, hseparator⟩ := ihfirst hfirst' (List.cons.inj heq).2
          obtain ⟨rfl, hmembers⟩ := separator_append_inj hseparator
          obtain ⟨rfl, hafter⟩ := ihsecond hsecond' hmembers
          obtain ⟨rfl, hrest⟩ :=
            sqlAfter_append_inj (fun c hc _ _ _ hc' => ihothers c hc hc') hothers' hafter
          exact ⟨rfl, hrest⟩
      | negation =>
          rw [negation_sql_append] at heq
          exact absurd (List.cons.inj heq).2 hfirst.sql_append_ne_not
  | negation hoperand ih =>
      rw [negation_sql_append] at heq
      cases hplain' with
      | test hcolumn' => exact absurd heq.symm (test_sql_append_ne_open hcolumn')
      | single hinner' =>
          rw [single_sql_append] at heq
          exact absurd (List.cons.inj heq).2.symm hinner'.sql_append_ne_not
      | list hfirst' =>
          rw [list_sql_append] at heq
          exact absurd (List.cons.inj heq).2.symm hfirst'.sql_append_ne_not
      | negation hoperand' =>
          rw [negation_sql_append] at heq
          simp only [List.cons.injEq, true_and] at heq
          obtain ⟨rfl, hsame⟩ := ih hoperand' heq
          simp only [List.cons.injEq, true_and, List.append_cancel_left_eq] at hsame
          exact ⟨rfl, hsame⟩

/-- A text is the text of one plain tree at most. -/
theorem IsPlain.eq_of_sql_eq {condition condition' : Condition} (hplain : condition.IsPlain)
    (hplain' : condition'.IsPlain) (heq : condition.sql = condition'.sql) :
    condition = condition' := by
  have happend : condition.sql.toList ++ [] = condition'.sql.toList ++ [] := by rw [heq]
  exact (hplain.sql_append_inj hplain' happend).1

end Condition

end FieldSearch
