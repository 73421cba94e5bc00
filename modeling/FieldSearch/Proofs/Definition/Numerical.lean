import FieldSearch.Proofs.Compile.Defaults
import FieldSearch.Proofs.Definition.Building
import FieldSearch.Proofs.Text.Marks
import Mathlib.Data.List.TakeWhile

/-! Numbers and the fields in which they are looked for. A text is a number if it is written as one,
character by character and with nothing around it. Comparisons by size look for no text, so they are
left with the default fields of a keyword that are not textual, and among these the numerical ones
are there for numbers and for nothing else. -/

namespace FieldSearch

/-! ### Numerals -/

/-- One or more of the ten ASCII digits. -/
def IsDigitRun (s : List Char) : Prop :=
  s ≠ [] ∧ ∀ c ∈ s, '0' ≤ c ∧ c ≤ '9'

/-- Digits, or digits on both sides of a point. -/
inductive IsUnsigned : List Char → Prop
  | whole {digits} : IsDigitRun digits → IsUnsigned digits
  | decimal {digits fraction} : IsDigitRun digits → IsDigitRun fraction →
      IsUnsigned (digits ++ '.' :: fraction)

/-- How numbers are written: without a sign or with one minus in front. -/
inductive IsNumeral : List Char → Prop
  | unsigned {s} : IsUnsigned s → IsNumeral s
  | negative {s} : IsUnsigned s → IsNumeral ('-' :: s)

variable {s whole : List Char} {c : Char}

theorem isDigit_iff_between : c.isDigit ↔ '0' ≤ c ∧ c ≤ '9' := by
  simp [Char.isDigit, Char.le_def]

theorem isDigits_iff : isDigits s ↔ IsDigitRun s := by
  simp [isDigits, IsDigitRun, isDigit_iff_between]

theorem IsDigitRun.not_mem (hrun : IsDigitRun s) (hc : c.isDigit = false) : c ∉ s := by
  intro hmem
  rw [isDigit_iff_between.mpr (hrun.2 c hmem)] at hc
  cases hc

theorem IsDigitRun.exists_cons (hrun : IsDigitRun s) : ∃ c rest, s = c :: rest ∧ c.isDigit := by
  obtain ⟨hne, hdigits⟩ := hrun
  obtain ⟨c, rest, rfl⟩ := List.exists_cons_of_ne_nil hne
  exact ⟨c, rest, rfl, isDigit_iff_between.mpr (hdigits c List.mem_cons_self)⟩

/-- A number without a sign begins with a digit. -/
theorem IsUnsigned.exists_cons (hnumber : IsUnsigned s) : ∃ c rest, s = c :: rest ∧ c.isDigit := by
  cases hnumber with
  | whole hrun => exact hrun.exists_cons
  | decimal hrun _ =>
      obtain ⟨c, rest, rfl, hc⟩ := hrun.exists_cons
      exact ⟨c, _, rfl, hc⟩

theorem isNumeral_minus_iff : IsNumeral ('-' :: s) ↔ IsUnsigned s := by
  constructor
  · rintro (hnumber | hnumber)
    · obtain ⟨c, rest, heq, hc⟩ := hnumber.exists_cons
      obtain ⟨rfl, -⟩ := List.cons.inj heq
      cases hc
    · exact hnumber
  · exact .negative

theorem isNumeral_iff_of_head (hhead : s.head? ≠ some '-') : IsNumeral s ↔ IsUnsigned s := by
  constructor
  · rintro (hnumber | hnumber)
    · exact hnumber
    · exact absurd rfl hhead
  · exact .unsigned

/-- Whether what stands behind the sign, if there is one, makes a number. -/
def isUnsigned (s : List Char) : Bool :=
  match s.dropWhile (· != '.') with
  | [] => isDigits (s.takeWhile (· != '.'))
  | _ :: fraction => isDigits (s.takeWhile (· != '.')) && isDigits fraction

theorem isNumber_eq (text : String) :
    isNumber text =
      isUnsigned (if text.toList.head? = some '-' then text.toList.tail else text.toList) :=
  rfl

theorem bne_point_of_not_mem (hpoint : '.' ∉ s) : ∀ c ∈ s, (c != '.') = true := by
  intro c hc
  simpa using ne_of_mem_of_not_mem hc hpoint

theorem isUnsigned_of_not_mem (hpoint : '.' ∉ s) : isUnsigned s = isDigits s := by
  have hbefore := bne_point_of_not_mem hpoint
  have htake : s.takeWhile (· != '.') = s := List.takeWhile_eq_self_iff.mpr hbefore
  have hdrop : s.dropWhile (· != '.') = [] := List.dropWhile_eq_nil_iff.mpr hbefore
  rw [isUnsigned, hdrop, htake]

theorem isUnsigned_append (hpoint : '.' ∉ whole) (fraction : List Char) :
    isUnsigned (whole ++ '.' :: fraction) = (isDigits whole && isDigits fraction) := by
  have hbefore := bne_point_of_not_mem hpoint
  have htake : (whole ++ '.' :: fraction).takeWhile (· != '.') = whole := by
    rw [List.takeWhile_append_of_pos hbefore]
    simp
  have hdrop : (whole ++ '.' :: fraction).dropWhile (· != '.') = '.' :: fraction := by
    rw [List.dropWhile_append_of_pos hbefore]
    simp
  rw [isUnsigned, hdrop, htake]

/-- The first point, if there is one, is the point of the number. -/
theorem isUnsigned_iff : isUnsigned s ↔ IsUnsigned s := by
  by_cases hmem : '.' ∈ s
  · obtain ⟨whole, fraction, rfl, hpoint⟩ := List.eq_append_cons_of_mem hmem
    rw [isUnsigned_append hpoint, Bool.and_eq_true, isDigits_iff, isDigits_iff]
    constructor
    · rintro ⟨hwhole, hfraction⟩
      exact .decimal hwhole hfraction
    · intro hnumber
      generalize heq : whole ++ '.' :: fraction = s at hnumber hmem
      -- Digits have no point among them, so the point of the numeral is the first of the text.
      cases hnumber with
      | whole hrun => exact absurd hmem (hrun.not_mem (by decide))
      | decimal hrun hfraction =>
          obtain ⟨rfl, rfl⟩ := append_cons_inj hpoint (hrun.not_mem (by decide)) heq
          exact ⟨hrun, hfraction⟩
  · rw [isUnsigned_of_not_mem hmem, isDigits_iff]
    constructor
    · exact .whole
    · intro hnumber
      cases hnumber with
      | whole hrun => exact hrun
      | decimal _ _ => simp at hmem

/-- The numbers are exactly the numerals. -/
theorem isNumber_iff {text : String} : isNumber text ↔ IsNumeral text.toList := by
  rw [isNumber_eq, isUnsigned_iff]
  by_cases hhead : text.toList.head? = some '-'
  · obtain ⟨rest, htext⟩ := List.head?_eq_some_iff.mp hhead
    rw [if_pos hhead, htext, List.tail_cons, isNumeral_minus_iff]
  · rw [if_neg hhead, isNumeral_iff_of_head hhead]

example : ["", "-", "--5", "+5", "1.", ".5", "1.2.3", "1e5", " 42", "４２"].filter isNumber = [] := by
  decide

/-! ### Fields for comparisons by size -/

namespace Definition

variable {definition : Definition} {field : Field} {value : String} {given : Option Operator}

/-- A numerical field is a default field exactly for numbers, whatever the comparison. -/
theorem mem_defaultFields_iff_isNumber (hfield : field ∈ definition.fields)
    (hnumerical : field.type.isNumerical) (hopen : field.onlyExplicit = false)
    (given : Option Operator) :
    field ∈ definition.defaultFields value given ↔ isNumber value := by
  simp [mem_defaultFields_iff, hfield, hopen, hnumerical, FieldType.of_isNumerical hnumerical]

theorem looksForText_of_size {op : Operator} (hop : op ∈ [Operator.gt, .lt, .gte, .lte]) :
    looksForText (some op) = false := by
  simp only [List.mem_cons, List.not_mem_nil, or_false] at hop
  rcases hop with rfl | rfl | rfl | rfl <;> rfl

/-- Where no text is looked for, the default fields are those of a keyword without the textual ones.
-/
theorem defaultFields_eq_filter (hgiven : looksForText given = false) :
    definition.defaultFields value given =
      (definition.defaultFields value none).filter fun field => !field.type.isTextual := by
  unfold defaultFields
  rw [List.filter_filter]
  apply List.filter_congr
  intro field _
  rw [hgiven]
  cases field.type <;> simp [looksForText, FieldType.isTextual, FieldType.isNumerical,
    FieldType.isTemporal]

/-- Where no text is looked for, a default field has numbers or times. -/
theorem type_of_mem_defaultFields (hgiven : looksForText given = false)
    (hmem : field ∈ definition.defaultFields value given) :
    field.type.isNumerical ∨ field.type.isTemporal := by
  obtain ⟨-, -, ⟨htext, -⟩ | ⟨-, hnumerical⟩ | ⟨-, htemporal⟩⟩ := mem_defaultFields_iff.mp hmem
  · rw [hgiven] at htext
    cases htext
  · exact .inl hnumerical
  · exact .inr htemporal

/-- A text is a number exactly if it is a numeral. Comparisons by size are made in a numerical field
for numerals only, in no textual, boolean or explicit field, and in the order of the definition in
some of the fields, each once, in which a keyword with the same text is looked for. -/
theorem defaultFields_by_size :
    (∀ text : String, isNumber text ↔ IsNumeral text.toList) ∧
    ∀ (builder : Builder) (definition : Definition), builder.build = .ok definition →
      ∀ value : String, ∀ op ∈ [Operator.gt, .lt, .gte, .lte],
        (∀ field ∈ definition.fields, field.type.isNumerical → field.onlyExplicit = false →
          (field ∈ definition.defaultFields value (some op) ↔ IsNumeral value.toList)) ∧
        (∀ field ∈ definition.defaultFields value (some op),
          ¬field.type.isTextual ∧ field.type ≠ .boolean ∧ field.onlyExplicit = false) ∧
        (definition.defaultFields value (some op)).Sublist (definition.defaultFields value none) ∧
        (definition.defaultFields value (some op)).Sublist definition.fields ∧
        (definition.defaultFields value (some op)).Nodup := by
  refine ⟨fun text => isNumber_iff, fun builder definition hbuild value op hop => ?_⟩
  have hgiven := looksForText_of_size hop
  have hsublist : (definition.defaultFields value (some op)).Sublist definition.fields :=
    List.filter_sublist
  refine ⟨?numerical, ?types, ?keyword, hsublist, hsublist.nodup (Builder.build_nodup hbuild)⟩
  case numerical =>
    intro field hfield hnumerical hopen
    rw [mem_defaultFields_iff_isNumber hfield hnumerical hopen, isNumber_iff]
  case types =>
    intro field hmem
    obtain ⟨-, hopen, -⟩ := mem_defaultFields_iff.mp hmem
    obtain ⟨htextual, hboolean⟩ :=
      FieldType.numerical_or_temporal_iff.mp (type_of_mem_defaultFields hgiven hmem)
    exact ⟨htextual, hboolean, hopen⟩
  case keyword =>
    rw [defaultFields_eq_filter hgiven]
    exact List.filter_sublist

/-- Goods are looked for by a price below zero, but not by one with two signs. -/
theorem defaultFields_by_size_goods :
    let price : Field := { name := "price", type := .decimal, table := some "goods" }
    let rank : Field :=
      { name := "rank", type := .integer, table := some "goods", onlyExplicit := true }
    let label : Field := { name := "label", type := .text, table := some "goods" }
    let goods : Definition :=
      ⟨"goods", .utc, [label, price, rank], ⟨[("rank", 2), ("price", 1), ("label", 0)]⟩⟩
    (⟨"goods", .utc, [label, price, rank]⟩ : Builder).build = .ok goods ∧
      price ∈ goods.defaultFields "-12.50" (some .lt) ∧
      price ∉ goods.defaultFields "--12.50" (some .lt) ∧
      rank ∉ goods.defaultFields "-12.50" (some .lt) ∧
      label ∉ goods.defaultFields "-12.50" (some .lt) ∧
      (goods.defaultFields "-12.50" (some .lt)).Sublist (goods.defaultFields "-12.50" none) := by
  intro price rank label goods
  have hbuild : (⟨"goods", .utc, [label, price, rank]⟩ : Builder).build = .ok goods := by decide
  obtain ⟨hnumber, hsize⟩ := defaultFields_by_size
  obtain ⟨hwritten, htypes, hkeyword, -⟩ := hsize _ goods hbuild "-12.50" .lt (by decide)
  obtain ⟨hunwritten, -⟩ := hsize _ goods hbuild "--12.50" .lt (by decide)
  have hnumeral : IsNumeral "-12.50".toList := by
    have hwhole : IsDigitRun ['1', '2'] := isDigits_iff.mp rfl
    have hfraction : IsDigitRun ['5', '0'] := isDigits_iff.mp rfl
    exact .negative (.decimal hwhole hfraction)
  have htwice : ¬IsNumeral "--12.50".toList := by
    rw [← hnumber]
    decide
  refine ⟨hbuild, (hwritten price (by decide) rfl rfl).mpr hnumeral, ?_, ?_, ?_, hkeyword⟩
  · exact fun hmem => htwice ((hunwritten price (by decide) rfl rfl).mp hmem)
  · exact fun hmem => absurd (htypes rank hmem).2.2 (by decide)
  · exact fun hmem => (htypes label hmem).1 rfl

end Definition

end FieldSearch
