import FieldSearch.Field.FieldType
import FieldSearch.Proofs.Text.White
import Mathlib.Data.List.Forall2
import Mathlib.Logic.Relation

/-! Spellings of type names. Changes of case, of white space and of what follows a parenthesis lead
from one spelling of a name to any other, and the texts that they lead to are exactly those with the
same normal spelling. So the type that is read from a text does not depend on how it is spelt. -/

namespace FieldSearch.FieldType

/-- One change in the spelling of a name: the case of letters, the length and kind of a gap, white
space at an end or before the first parenthesis, or that parenthesis and all that follows it. -/
inductive Respelt : List Char → List Char → Prop
  | letters {s t : List Char} (hcase : List.Forall₂ (fun c d => c.toLower = d.toLower) s t) :
      Respelt s t
  | gap (before after : List Char) {gap gap' : List Char} (hne : gap ≠ []) (hne' : gap' ≠ [])
      (hgap : ∀ c ∈ gap, Text.isWhite c) (hgap' : ∀ c ∈ gap', Text.isWhite c) :
      Respelt (before ++ gap ++ after) (before ++ gap' ++ after)
  | front (s : List Char) {gap : List Char} (hgap : ∀ c ∈ gap, Text.isWhite c) :
      Respelt s (gap ++ s)
  | behind (s : List Char) {gap : List Char} (hgap : ∀ c ∈ gap, Text.isWhite c) :
      Respelt s (s ++ gap)
  | beforeParenthesis {before gap : List Char} (hbefore : '(' ∉ before)
      (hgap : ∀ c ∈ gap, Text.isWhite c) (after : List Char) :
      Respelt (before ++ '(' :: after) (before ++ gap ++ '(' :: after)
  | modifiers {before : List Char} (hbefore : '(' ∉ before) (after : List Char) :
      Respelt before (before ++ '(' :: after)

/-- Spellings of one name, from one to the other in any number of changes. -/
def SpeltAlike : List Char → List Char → Prop :=
  Relation.EqvGen Respelt

variable {s t u before gap gap' : List Char}

/-! ### What is kept -/

/-- The text before the first parenthesis. -/
def base (s : List Char) : List Char :=
  s.takeWhile (· != '(')

theorem base_append_of_mem (hmem : '(' ∈ s) (t : List Char) : base (s ++ t) = base s := by
  obtain ⟨before, after, rfl⟩ := List.append_of_mem hmem
  simp [base, List.takeWhile_append]

theorem base_append_of_not_mem (hmem : '(' ∉ s) (t : List Char) : base (s ++ t) = s ++ base t :=
  List.takeWhile_append_of_pos fun _ hc => by simpa using ne_of_mem_of_not_mem hc hmem

theorem base_parenthesis (hmem : '(' ∉ s) (after : List Char) : base (s ++ '(' :: after) = s := by
  rw [base_append_of_not_mem hmem]
  simp [base]

theorem base_eq_self (hmem : '(' ∉ s) : base s = s := by
  simpa [base] using base_append_of_not_mem hmem []

theorem not_mem_of_isWhite (hgap : ∀ c ∈ gap, Text.isWhite c) : '(' ∉ gap :=
  fun hmem => absurd (hgap _ hmem) (by decide)

/-- The words of a name, without their case. -/
def nameWords (s : List Char) : List (List Char) :=
  Text.words (base (Text.lowerAscii s))

/-- No letter becomes a parenthesis. -/
theorem mem_lowerAscii_iff : '(' ∈ Text.lowerAscii s ↔ '(' ∈ s := by
  have hiff : ∀ c : Char, c.toLower = '(' ↔ c = '(' := fun c => Text.toLower_eq_iff (by decide)
  simp [Text.lowerAscii, hiff]

theorem nameWords_front (hgap : ∀ c ∈ gap, Text.isWhite c) (s : List Char) :
    nameWords (gap ++ s) = nameWords s := by
  rw [nameWords, Text.lowerAscii_append, Text.lowerAscii_of_isWhite hgap,
    base_append_of_not_mem (not_mem_of_isWhite hgap), Text.words_gap_append hgap, nameWords]

theorem nameWords_behind (hgap : ∀ c ∈ gap, Text.isWhite c) (s : List Char) :
    nameWords (s ++ gap) = nameWords s := by
  rw [nameWords, Text.lowerAscii_append, Text.lowerAscii_of_isWhite hgap, nameWords]
  by_cases hmem : '(' ∈ Text.lowerAscii s
  · rw [base_append_of_mem hmem]
  · rw [base_append_of_not_mem hmem, base_eq_self hmem,
      base_eq_self (not_mem_of_isWhite hgap), Text.words_append_gap hgap]

/-- White space inside only tells that it is there. -/
theorem nameWords_gap (hne : gap ≠ []) (hne' : gap' ≠ [])
    (hgap : ∀ c ∈ gap, Text.isWhite c) (hgap' : ∀ c ∈ gap', Text.isWhite c)
    (before after : List Char) :
    nameWords (before ++ gap ++ after) = nameWords (before ++ gap' ++ after) := by
  by_cases hmem : '(' ∈ Text.lowerAscii before
  · simp only [nameWords, Text.lowerAscii_append, List.append_assoc, base_append_of_mem hmem]
  · have hcut : ∀ {gap}, gap ≠ [] → (∀ c ∈ gap, Text.isWhite c) →
        nameWords (before ++ gap ++ after) =
          Text.words (Text.lowerAscii before) ++ Text.words (base (Text.lowerAscii after)) := by
      intro gap hne hgap
      rw [nameWords, Text.lowerAscii_append, Text.lowerAscii_append,
        Text.lowerAscii_of_isWhite hgap, List.append_assoc, base_append_of_not_mem hmem,
        base_append_of_not_mem (not_mem_of_isWhite hgap), ← List.append_assoc,
        Text.words_append_gap_append hne hgap]
    rw [hcut hne hgap, hcut hne' hgap']

theorem nameWords_parenthesis (hbefore : '(' ∉ before) (after : List Char) :
    nameWords (before ++ '(' :: after) = nameWords before := by
  have hlower : '(' ∉ Text.lowerAscii before := mem_lowerAscii_iff.not.mpr hbefore
  have hopen : Text.lowerAscii ('(' :: after) = '(' :: Text.lowerAscii after := rfl
  rw [nameWords, Text.lowerAscii_append, hopen, base_parenthesis hlower, nameWords,
    base_eq_self hlower]

/-- A change keeps the words. -/
theorem Respelt.nameWords_eq (hchange : Respelt s t) : nameWords s = nameWords t := by
  cases hchange with
  | letters hcase =>
      have hlower : Text.lowerAscii s = Text.lowerAscii t := by
        rwa [Text.lowerAscii, Text.lowerAscii, ← List.forall₂_eq_eq_eq, List.forall₂_map_left_iff,
          List.forall₂_map_right_iff]
      rw [nameWords, nameWords, hlower]
  | gap before after hne hne' hgap hgap' => exact nameWords_gap hne hne' hgap hgap' before after
  | front _ hgap => exact (nameWords_front hgap s).symm
  | behind _ hgap => exact (nameWords_behind hgap s).symm
  | @beforeParenthesis before gap hbefore hgap after =>
      have hgapped : '(' ∉ before ++ gap := by
        simpa [hbefore] using not_mem_of_isWhite hgap
      rw [nameWords_parenthesis hbefore, nameWords_parenthesis hgapped, nameWords_behind hgap]
  | modifiers hbefore after => exact (nameWords_parenthesis hbefore after).symm

/-- The normal spelling has the words with single blanks between them. -/
theorem normalize_eq (s : List Char) : normalize s = [' '].intercalate (nameWords s) := by
  obtain ⟨front, behind, hfront, hbehind, hs⟩ := Text.exists_trim s
  have htrim : nameWords s = nameWords (Text.trim s) := by
    conv_lhs => rw [hs]
    rw [nameWords_behind hbehind, nameWords_front hfront]
  rw [htrim]
  rfl

theorem SpeltAlike.nameWords_eq (halike : SpeltAlike s t) : nameWords s = nameWords t := by
  induction halike with
  | rel s t hchange => exact hchange.nameWords_eq
  | refl s => rfl
  | symm s t _ ih => exact ih.symm
  | trans s t u _ _ ihst ihtu => exact ihst.trans ihtu

/-! ### Nothing else is kept -/

theorem intercalate_cons (word : List Char) (more : List (List Char)) :
    [' '].intercalate (word :: more) = word ++ more.flatMap (' ' :: ·) := by
  induction more generalizing word with
  | nil => simp
  | cons next more ih => simp [List.intercalate_cons_cons, ih]

theorem Respelt.speltAlike (hchange : Respelt s t) : SpeltAlike s t :=
  .rel s t hchange

theorem SpeltAlike.symm (halike : SpeltAlike s t) : SpeltAlike t s :=
  Relation.EqvGen.symm s t halike

theorem SpeltAlike.trans (hst : SpeltAlike s t) (htu : SpeltAlike t u) : SpeltAlike s u :=
  Relation.EqvGen.trans s t u hst htu

/-- Gaps can be made single blanks behind a word, and the last one can be left out. -/
theorem speltAlike_gaps (s : List Char) (hstart : ∀ c ∈ s.head?, Text.isWhite c)
    (before : List Char) :
    SpeltAlike (before ++ s) (before ++ (Text.words s).flatMap (' ' :: ·)) := by
  induction s using Text.words_induction generalizing before with
  | blank gap hgap =>
      rw [Text.words_of_isWhite hgap, List.flatMap_nil, List.append_nil]
      exact (Respelt.behind before hgap).speltAlike.symm
  | word gap word rest hgap hne hword hrest ih =>
      have hgapped : gap ≠ [] := by
        rintro rfl
        obtain ⟨c, word, rfl⟩ := List.exists_cons_of_ne_nil hne
        exact hword c List.mem_cons_self (hstart c rfl)
      have hblank : SpeltAlike (before ++ gap ++ (word ++ rest))
          (before ++ [' '] ++ (word ++ rest)) :=
        (Respelt.gap before _ hgapped (by simp) hgap (by simp [Text.isWhite])).speltAlike
      rw [Text.words_gap_append hgap, Text.words_word_append hne hword hrest, List.flatMap_cons]
      have hrest := ih hrest (before ++ [' '] ++ word)
      simp only [List.append_assoc, List.cons_append] at hblank hrest ⊢
      exact hblank.trans hrest

theorem speltAlike_words (s : List Char) : SpeltAlike s ([' '].intercalate (Text.words s)) := by
  cases s using Text.words_induction with
  | blank gap hgap =>
      rw [Text.words_of_isWhite hgap]
      simpa using (Respelt.front [] hgap).speltAlike.symm
  | word gap word rest hgap hne hword hrest =>
      rw [Text.words_gap_append hgap, Text.words_word_append hne hword hrest, intercalate_cons]
      exact (Respelt.front _ hgap).speltAlike.symm.trans (speltAlike_gaps rest hrest word)

theorem speltAlike_base (s : List Char) : SpeltAlike s (base s) := by
  by_cases hmem : '(' ∈ s
  · obtain ⟨before, after, rfl, hbefore⟩ := List.eq_append_cons_of_mem hmem
    rw [base_parenthesis hbefore]
    exact (Respelt.modifiers hbefore after).speltAlike.symm
  · rw [base_eq_self hmem]
    exact .refl s

/-- Every text is a spelling of its normal spelling. -/
theorem speltAlike_normalize (s : List Char) : SpeltAlike s (normalize s) := by
  have hletters : List.Forall₂ (fun c d => c.toLower = d.toLower) s (Text.lowerAscii s) := by
    rw [Text.lowerAscii, List.forall₂_map_right_iff]
    exact List.forall₂_same.mpr fun c _ => (Text.toLower_toLower c).symm
  rw [normalize_eq, nameWords]
  exact ((Respelt.letters hletters).speltAlike.trans (speltAlike_base _)).trans (speltAlike_words _)

/-- Texts are spellings of one name if they have the same normal spelling, and only then. -/
theorem speltAlike_iff : SpeltAlike s t ↔ normalize s = normalize t := by
  constructor
  · intro halike
    rw [normalize_eq, normalize_eq, halike.nameWords_eq]
  · intro hsame
    have ht := (speltAlike_normalize t).symm
    rw [← hsame] at ht
    exact (speltAlike_normalize s).trans ht

/-! ### Types of names -/

theorem ofName?_congr {name name' : String} (halike : SpeltAlike name.toList name'.toList) :
    ofName? name = ofName? name' := by
  rw [ofName?, ofName?, speltAlike_iff.mp halike]

/-- Spellings of one name have one type, or none of them has a type and each is told as it is
written. A normal spelling is its own normal spelling, and the name of a type is a name of that
type however it is spelt. -/
theorem ofName_spelling :
    (∀ name name' : String, SpeltAlike name.toList name'.toList →
      (∃ type, ofName name = .ok type ∧ ofName name' = .ok type) ∨
        (ofName name = .error ("Unknown field type: " ++ name) ∧
          ofName name' = .error ("Unknown field type: " ++ name'))) ∧
    (∀ s, normalize (normalize s) = normalize s) ∧
    (∀ (type : FieldType) (name : String), SpeltAlike type.name.toList name.toList →
      ofName name = .ok type) := by
  refine ⟨fun name name' halike => ?_, fun s => ?_, fun type name halike => ?_⟩
  · have hsame := ofName?_congr halike
    cases hfound : ofName? name with
    | some type =>
        rw [hfound] at hsame
        exact .inl ⟨type, ofName_of_some hfound, ofName_of_some hsame.symm⟩
    | none =>
        rw [hfound] at hsame
        exact .inr ⟨ofName_of_none hfound, ofName_of_none hsame.symm⟩
  · exact (speltAlike_iff.mp (speltAlike_normalize s)).symm
  · have hfound : ofName? name = some type := by rw [← ofName?_congr halike, ofName?_name]
    exact ofName_of_some hfound

/-- Gaps of several kinds, and modifiers with parentheses inside. -/
theorem ofName_spelling_time_zone :
    ofName " TimeStamp\u3000WITH\tTime  Zone ((6)(" = .ok .timestamp ∧
    ofName "\u2003TimeStamp (6)" = .ok .timestamp ∧
    ofName "Geometry (Point" = .error "Unknown field type: Geometry (Point" ∧
    normalize (normalize ['A', '\t', 'b', '(']) = normalize ['A', '\t', 'b', '('] := by
  obtain ⟨hsame, hnormal, hname⟩ := ofName_spelling
  refine ⟨?_, hname .timestamp _ (speltAlike_iff.mpr (by decide)), ?_, hnormal _⟩
  · rcases hsame "timestamp with time zone" " TimeStamp\u3000WITH\tTime  Zone ((6)("
      (speltAlike_iff.mpr (by decide)) with ⟨type, hplain, hspelt⟩ | ⟨hplain, -⟩
    · obtain rfl : .timestamp = type := Except.ok.inj hplain
      exact hspelt
    · cases hplain
  · rcases hsame "geometry" "Geometry (Point" (speltAlike_iff.mpr (by decide)) with
      ⟨type, hplain, -⟩ | ⟨-, hspelt⟩
    · cases hplain
    · exact hspelt

end FieldSearch.FieldType
