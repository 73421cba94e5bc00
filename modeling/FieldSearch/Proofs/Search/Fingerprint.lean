import Mathlib.Data.List.Forall2
import FieldSearch.Definition.Sample
import FieldSearch.Proofs.Field.Literal
import FieldSearch.Proofs.Search.Naming

/-! Which searches have the text of their fingerprints in common. No condition ends in a quote, and
every parameter adds a null character and a literal, so the text is cut into its literals from
behind. It tells the condition and what each parameter shows, which is not all: timestamps within
the same second show the same. -/

namespace FieldSearch

/-- A condition ends in a placeholder or in a parenthesis. -/
theorem Condition.exists_getLast?_sql (condition : Condition) :
    ∃ last ≠ '\x27', condition.sql.toList.getLast? = some last := by
  cases condition with
  | test column token => exact ⟨'?', by decide, by simp [sql, List.getLast?_cons]⟩
  | single inner => exact ⟨')', by decide, by simp [sql, List.getLast?_cons]⟩
  | list op first second rest => exact ⟨')', by decide, by simp [sql, List.getLast?_cons]⟩
  | negation negated nullCheck => exact ⟨')', by decide, by simp [sql, List.getLast?_cons]⟩

namespace Search

/-! ### Literals behind a condition -/

/-- The literals of parameters, each behind a null character. -/
def literalsText (params : List BindValue) : List Char :=
  params.flatMap fun param => '\x00' :: param.literal.toList

theorem toList_fingerprintText (search : Search) :
    search.fingerprintText.toList =
      (search.condition.getD "").toList ++ literalsText search.params := by
  have hjoin : ∀ params : List BindValue,
      (String.join (params.map fun param => "\x00" ++ param.literal)).toList =
        literalsText params := by
    intro params
    induction params with
    | nil => rfl
    | cons param params ih => simp [literalsText, ih]
  rw [fingerprintText, String.toList_append, hjoin]

/-- A text with literals behind it, read from the end. -/
theorem reverse_append_literalsText (text : List Char) (params : List BindValue)
    (param : BindValue) :
    (text ++ literalsText (params ++ [param])).reverse =
      '\x27' :: (BindValue.escaped param.shown.toList.reverse ++
        '\x27' :: '\x00' :: (text ++ literalsText params).reverse) := by
  simp [literalsText, BindValue.toList_literal, BindValue.reverse_escaped]

theorem append_nil_ne {text text' : List Char} (hlast : text.getLast? ≠ some '\x27')
    (params : List BindValue) (param : BindValue) :
    text ++ literalsText [] ≠ text' ++ literalsText (params ++ [param]) := by
  intro heq
  have hreverse := congrArg List.reverse heq
  rw [reverse_append_literalsText] at hreverse
  simp only [literalsText, List.flatMap_nil, List.append_nil] at hreverse
  rw [List.getLast?_eq_head?_reverse, hreverse] at hlast
  exact hlast rfl

/-- Behind a text that does not end in a quote, the literals can be told from the text. -/
theorem append_literalsText_inj {text text' : List Char} {params params' : List BindValue}
    (hlast : text.getLast? ≠ some '\x27') (hlast' : text'.getLast? ≠ some '\x27')
    (heq : text ++ literalsText params = text' ++ literalsText params') :
    text = text' ∧ List.Forall₂ BindValue.ShownAlike params params' := by
  induction params using List.reverseRecOn generalizing params' with
  | nil =>
      cases params' using List.reverseRecOn with
      | nil => simpa [literalsText] using heq
      | append_singleton params' param' => exact absurd heq (append_nil_ne hlast params' param')
  | append_singleton params param ih =>
      cases params' using List.reverseRecOn with
      | nil => exact absurd heq.symm (append_nil_ne hlast' params param)
      | append_singleton params' param' =>
          have hreverse := congrArg List.reverse heq
          rw [reverse_append_literalsText, reverse_append_literalsText] at hreverse
          obtain ⟨hshown, hbefore⟩ := BindValue.escaped_append_inj (by simp) (by simp)
            (List.cons.inj hreverse).2
          have hshown : param.shown = param'.shown :=
            String.toList_inj.mp (List.reverse_injective hshown)
          obtain ⟨rfl, hparams⟩ := ih (List.reverse_injective (List.cons.inj hbefore).2)
          exact ⟨rfl, List.rel_append hparams (.cons (BindValue.shown_eq_iff.mp hshown) .nil)⟩

theorem literalsText_congr {params params' : List BindValue}
    (halike : List.Forall₂ BindValue.ShownAlike params params') :
    literalsText params = literalsText params' := by
  induction halike with
  | nil => rfl
  | cons hparam _ ih =>
      have hliteral := BindValue.literal_eq_iff.mpr (BindValue.shown_eq_iff.mpr hparam)
      simp only [literalsText, List.flatMap_cons, hliteral] at ih ⊢
      rw [ih]

/-! ### Searches -/

/-- Every search that a query asks for is made from a condition. -/
theorem exists_ofCondition {registry : Registry} {query : Option String} {search : Search}
    (hsearch : ofQuery registry query = .ok search) :
    ∃ condition bound, search = ofCondition condition bound := by
  cases query with
  | none =>
      cases hsearch
      exact ⟨none, [], rfl⟩
  | some text =>
      unfold ofQuery at hsearch
      dsimp only at hsearch
      split at hsearch
      · cases hsearch
        exact ⟨none, [], rfl⟩
      split at hsearch
      · cases hsearch
      next node _ =>
        unfold ofNode at hsearch
        split at hsearch
        · cases hsearch
        next found hfound =>
          cases hsearch
          split at hfound
          · cases hfound
          next condition trace _ =>
            cases hfound
            exact ⟨condition, trace.bound, rfl⟩

theorem getLast?_ofCondition (condition : Option Condition) (bound : List BindValue) :
    ((ofCondition condition bound).condition.getD "").toList.getLast? ≠ some '\x27' := by
  cases condition with
  | none => simp [ofCondition, matchAll]
  | some condition =>
      obtain ⟨last, hne, hlast⟩ := condition.exists_getLast?_sql
      simpa [ofCondition, hlast] using hne

/-- The empty text is that of no condition, so the text tells whether there is one. -/
theorem condition_ofCondition_inj {condition condition' : Option Condition}
    {bound bound' : List BindValue}
    (heq : (ofCondition condition bound).condition.getD "" =
      (ofCondition condition' bound').condition.getD "") :
    (ofCondition condition bound).condition = (ofCondition condition' bound').condition := by
  have hne : ∀ condition : Condition, condition.sql ≠ "" := by
    intro condition hempty
    obtain ⟨last, -, hlast⟩ := condition.exists_getLast?_sql
    simp [hempty] at hlast
  cases condition with
  | none =>
      cases condition' with
      | none => rfl
      | some condition' => exact absurd heq.symm (hne condition')
  | some condition =>
      cases condition' with
      | none => exact absurd heq (hne condition)
      | some condition' => exact congrArg some heq

/-- Two searches of a definition have the same text of their fingerprints if they have the same
condition and their parameters look the same in SQL, and only then. -/
theorem fingerprintText_eq_iff {registry : Registry} {query query' : Option String}
    {search search' : Search} (hsearch : ofQuery registry query = .ok search)
    (hsearch' : ofQuery registry query' = .ok search') :
    search.fingerprintText = search'.fingerprintText ↔
      search.condition = search'.condition ∧
        List.Forall₂ BindValue.ShownAlike search.params search'.params := by
  obtain ⟨condition, bound, rfl⟩ := exists_ofCondition hsearch
  obtain ⟨condition', bound', rfl⟩ := exists_ofCondition hsearch'
  rw [← String.toList_inj, toList_fingerprintText, toList_fingerprintText]
  constructor
  · intro heq
    obtain ⟨htext, halike⟩ := append_literalsText_inj (getLast?_ofCondition condition bound)
      (getLast?_ofCondition condition' bound') heq
    exact ⟨condition_ofCondition_inj (String.toList_inj.mp htext), halike⟩
  · rintro ⟨hcondition, halike⟩
    rw [hcondition, literalsText_congr halike]

/-- A comparison of a name with a value, both in marks, is a search in the column of the field. -/
theorem ofQuery_inMarks {definition : Definition} {name : String} {field : Field}
    (hfield : definition.field? name = some field) (value : String) :
    ofQuery definition.registry (some (Query.inMarks name ++ "=" ++ Query.inMarks value)) =
      .ok (ofBound (field.columnSql ++ " " ++ "=" ++ " ?")
        (field.boundValue? definition.zone .eq value)) := by
  have hblank : ¬Text.isBlank (Query.inMarks name ++ "=" ++ Query.inMarks value) := by
    rw [String.append_assoc]
    exact Query.not_isBlank_inMarks name _
  have hsymbol : Operator.ofSymbol? "=" = some .eq := rfl
  rw [ofQuery_of_not_blank hblank (Query.parse_inMarks hsymbol name value),
    ofNode_comparison hfield rfl]
  rfl

/-- A leap day and the day after it. -/
theorem fingerprintText_eq_iff_leap_day : ∃ leapDay nextDay : Search,
    ofQuery Sample.people.registry (some "\"born_on\"=\"2000-02-29\"") = .ok leapDay ∧
    ofQuery Sample.people.registry (some "\"born_on\"=\"2000-03-01\"") = .ok nextDay ∧
    leapDay.params = [.date ⟨2000, 2, 29⟩] ∧ nextDay.params = [.date ⟨2000, 3, 1⟩] ∧
    leapDay.fingerprintText ≠ nextDay.fingerprintText := by
  have hfield : Sample.people.field? "born_on" =
      some { name := "born_on", type := .date, table := some "people" } := rfl
  have hleapDay := ofQuery_inMarks hfield "2000-02-29"
  have hnextDay := ofQuery_inMarks hfield "2000-03-01"
  refine ⟨_, _, hleapDay, hnextDay, rfl, rfl, fun heq => ?_⟩
  obtain ⟨-, halike⟩ := (fingerprintText_eq_iff hleapDay hnextDay).mp heq
  cases halike with
  | cons hday _ => exact absurd (Calendar.Date.mk.inj hday).2.1 (by decide)

/-- Half a second lies between two moments, and between two searches whose fingerprints are the
same. -/
theorem fingerprint_half_second : ∃ (definition : Definition) (whole half : Search),
    (⟨"events", .utc, [{ name := "at", type := .timestamp }]⟩ : Builder).build = .ok definition ∧
    ofQuery definition.registry (some "\"at\"=\"2024-01-15T10:30:00Z\"") = .ok whole ∧
    ofQuery definition.registry (some "\"at\"=\"2024-01-15T10:30:00.5Z\"") = .ok half ∧
    whole.params = [.timestamp ⟨1705314600, 0⟩] ∧
    half.params = [.timestamp ⟨1705314600, 500000000⟩] ∧
    whole ≠ half ∧ whole.fingerprintText = half.fingerprintText := by
  let field : Field := { name := "at", type := .timestamp, table := some "events" }
  let events : Definition := ⟨"events", .utc, [field], ⟨[("at", 0)]⟩⟩
  have hfield : events.field? "at" = some field := rfl
  refine ⟨events, ⟨some "events.at = ?", [.timestamp ⟨1705314600, 0⟩]⟩,
    ⟨some "events.at = ?", [.timestamp ⟨1705314600, 500000000⟩]⟩, rfl, ?_, ?_, rfl, rfl,
    by decide, by decide⟩
  · exact ofQuery_inMarks hfield "2024-01-15T10:30:00Z"
  · exact ofQuery_inMarks hfield "2024-01-15T10:30:00.5Z"

end Search

end FieldSearch
