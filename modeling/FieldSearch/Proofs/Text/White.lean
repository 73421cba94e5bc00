import FieldSearch.Text.White
import Mathlib.Data.List.TakeWhile

/-! White space in texts. It separates words, and at the ends of a text it is trimmed and otherwise
changes nothing. -/

namespace FieldSearch.Text

variable {c d : Char} {s gap word : List Char}

/-! ### White space and case -/

/-- A capital stands 32 places before its small letter, and every other character is kept. -/
theorem toLower_cases (c : Char) :
    c.toLower = c ∨ c.toLower.toNat = c.toNat + 32 ∧ 65 ≤ c.toNat ∧ c.toNat ≤ 90 := by
  by_cases hcapital : c.val ≥ 'A'.val ∧ c.val ≤ 'Z'.val
  · have hlow : 65 ≤ c.toNat := hcapital.1
    have hhigh : c.toNat ≤ 90 := hcapital.2
    have hlower : c.toLower.val = c.val + ('a'.val - 'A'.val) :=
      congrArg Char.val (dif_pos hcapital)
    have hplace : c.toLower.toNat = (c.toNat + 32) % 4294967296 := by
      rw [Char.toNat, hlower, UInt32.toNat_add]
      rfl
    exact .inr ⟨by omega, hlow, hhigh⟩
  · exact .inl (dif_neg hcapital)

theorem toLower_toLower (c : Char) : c.toLower.toLower = c.toLower := by
  rcases toLower_cases c with hself | ⟨hlower, hlow, -⟩
  · rw [hself, hself]
  · rcases toLower_cases c.toLower with hself | ⟨-, -, hhigh⟩
    · exact hself
    · omega

/-- No letter becomes a character that stands before the letters. -/
theorem toLower_eq_iff {d : Char} (hd : d.toNat < 65) : c.toLower = d ↔ c = d := by
  rcases toLower_cases c with hself | ⟨hlower, hlow, -⟩
  · rw [hself]
  · constructor <;> (rintro rfl; omega)

/-- White space has no case. -/
theorem toLower_of_isWhite (hwhite : isWhite c) : c.toLower = c := by
  rcases toLower_cases c with hself | ⟨-, hlow, hhigh⟩
  · exact hself
  · simp only [isWhite, Bool.or_eq_true, Bool.and_eq_true, decide_eq_true_eq, beq_iff_eq] at hwhite
    omega

theorem lowerAscii_append (s t : List Char) :
    lowerAscii (s ++ t) = lowerAscii s ++ lowerAscii t :=
  List.map_append

theorem lowerAscii_of_isWhite (hgap : ∀ c ∈ gap, isWhite c) : lowerAscii gap = gap := by
  calc
    lowerAscii gap = gap.map id := List.map_congr_left fun c hc => toLower_of_isWhite (hgap c hc)
    _ = gap := List.map_id gap

/-! ### Words of a text -/

theorem words_cons_of_isWhite (hwhite : isWhite c) (s : List Char) : words (c :: s) = words s :=
  if_pos hwhite

theorem words_singleton (hc : ¬isWhite c) : words [c] = [[c]] :=
  if_neg hc

theorem words_cons_cons_of_isWhite (hc : ¬isWhite c) (hd : isWhite d) (s : List Char) :
    words (c :: d :: s) = [c] :: words s := by
  calc
    words (c :: d :: s) = if isWhite d then [c] :: words (d :: s) else _ := if_neg hc
    _ = [c] :: words s := by rw [if_pos hd, words_cons_of_isWhite hd]

/-- A word grows at the front. -/
theorem words_cons_of_words {more : List (List Char)} (hc : ¬isWhite c) (hd : ¬isWhite d)
    (hwords : words (d :: s) = word :: more) : words (c :: d :: s) = (c :: word) :: more := by
  calc
    words (c :: d :: s) = if isWhite d then [c] :: words (d :: s) else _ := if_neg hc
    _ = (c :: word) :: more := by rw [if_neg hd, hwords]

/-- A word begins where there is no white space. -/
theorem exists_words_cons (hc : ¬isWhite c) (s : List Char) :
    ∃ word more, words (c :: s) = word :: more := by
  induction s generalizing c with
  | nil => exact ⟨[c], [], words_singleton hc⟩
  | cons d s ih =>
      by_cases hd : isWhite d
      · exact ⟨_, _, words_cons_cons_of_isWhite hc hd s⟩
      · obtain ⟨word, more, hwords⟩ := ih hd
        exact ⟨_, _, words_cons_of_words hc hd hwords⟩

/-- Words end at white space. -/
theorem words_append_cons (hwhite : isWhite c) (s t : List Char) :
    words (s ++ c :: t) = words s ++ words t := by
  induction s with
  | nil => exact words_cons_of_isWhite hwhite t
  | cons d s ih =>
      by_cases hd : isWhite d
      · rw [List.cons_append, words_cons_of_isWhite hd, words_cons_of_isWhite hd, ih]
      cases s with
      | nil =>
          rw [List.cons_append, List.nil_append, words_cons_cons_of_isWhite hd hwhite,
            words_singleton hd, List.singleton_append]
      | cons e s =>
          by_cases he : isWhite e
          · rw [List.cons_append, words_cons_of_isWhite he, words_cons_of_isWhite he] at ih
            rw [List.cons_append, List.cons_append, words_cons_cons_of_isWhite hd he,
              words_cons_cons_of_isWhite hd he, ih, List.cons_append]
          · obtain ⟨word, more, hwords⟩ := exists_words_cons he s
            rw [hwords, List.cons_append] at ih
            rw [words_cons_of_words hd he hwords]
            exact words_cons_of_words hd he ih

theorem words_gap_append (hgap : ∀ c ∈ gap, isWhite c) (s : List Char) :
    words (gap ++ s) = words s := by
  induction gap with
  | nil => rfl
  | cons c gap ih =>
      rw [List.forall_mem_cons] at hgap
      rw [List.cons_append, words_cons_of_isWhite hgap.1, ih hgap.2]

theorem words_of_isWhite (hgap : ∀ c ∈ gap, isWhite c) : words gap = [] := by
  calc
    words gap = words (gap ++ []) := by rw [List.append_nil]
    _ = [] := words_gap_append hgap []

theorem words_append_gap_append (hne : gap ≠ []) (hgap : ∀ c ∈ gap, isWhite c) (s t : List Char) :
    words (s ++ gap ++ t) = words s ++ words t := by
  cases gap with
  | nil => exact absurd rfl hne
  | cons c gap =>
      rw [List.forall_mem_cons] at hgap
      rw [List.append_assoc, List.cons_append, words_append_cons hgap.1, words_gap_append hgap.2]

theorem words_append_gap (hgap : ∀ c ∈ gap, isWhite c) (s : List Char) :
    words (s ++ gap) = words s := by
  cases gap with
  | nil => rw [List.append_nil]
  | cons c gap =>
      rw [List.forall_mem_cons] at hgap
      rw [words_append_cons hgap.1, words_of_isWhite hgap.2, List.append_nil]

/-- A text without white space is one word. -/
theorem words_of_word (hne : word ≠ []) (hword : ∀ c ∈ word, ¬isWhite c) :
    words word = [word] := by
  induction word with
  | nil => exact absurd rfl hne
  | cons c word ih =>
      rw [List.forall_mem_cons] at hword
      cases word with
      | nil => exact words_singleton hword.1
      | cons d word =>
          have hd : ¬isWhite d := hword.2 d List.mem_cons_self
          exact words_cons_of_words hword.1 hd (ih (List.cons_ne_nil d word) hword.2)

/-- A word at the front ends where the text does or white space begins. -/
theorem words_word_append (hne : word ≠ []) (hword : ∀ c ∈ word, ¬isWhite c)
    (hrest : ∀ c ∈ s.head?, isWhite c) : words (word ++ s) = word :: words s := by
  cases s with
  | nil =>
      rw [List.append_nil, words_of_word hne hword]
      rfl
  | cons c s =>
      have hc : isWhite c := hrest c rfl
      rw [words_append_cons hc, words_of_word hne hword, words_cons_of_isWhite hc,
        List.singleton_append]

/-- Texts are built from the end, each time with a word in front and white space before it. -/
@[elab_as_elim]
theorem words_induction {motive : List Char → Prop}
    (blank : ∀ gap : List Char, (∀ c ∈ gap, isWhite c) → motive gap)
    (word : ∀ gap word rest : List Char, (∀ c ∈ gap, isWhite c) → word ≠ [] →
      (∀ c ∈ word, ¬isWhite c) → (∀ c ∈ rest.head?, isWhite c) → motive rest →
      motive (gap ++ (word ++ rest))) (s : List Char) : motive s := by
  induction hlength : s.length using Nat.strong_induction_on generalizing s with
  | _ length ih =>
      have hs : s.takeWhile isWhite ++ s.dropWhile isWhite = s := List.takeWhile_append_dropWhile
      have hgap : ∀ c ∈ s.takeWhile isWhite, isWhite c := fun c => List.mem_takeWhile_imp
      have hstart := List.head?_dropWhile_not isWhite s
      cases hrest : s.dropWhile isWhite with
      | nil =>
          rw [← hs, hrest, List.append_nil]
          exact blank _ hgap
      | cons c r =>
          have hc : ¬isWhite c := by simpa [hrest] using hstart
          have hstop := List.head?_dropWhile_not (!isWhite ·) r
          have hshorter : (r.dropWhile (!isWhite ·)).length < length := by
            have hle := (List.dropWhile_sublist (!isWhite ·) (l := r)).length_le
            have hcut := congrArg List.length hs
            rw [List.length_append, hrest, List.length_cons] at hcut
            omega
          rw [← hs, hrest, ← List.takeWhile_append_dropWhile (p := (!isWhite ·)) (l := r),
            ← List.cons_append]
          refine word _ _ _ hgap (List.cons_ne_nil c _) ?_ ?_ (ih _ hshorter _ rfl)
          · rw [List.forall_mem_cons]
            exact ⟨hc, fun d hd => by simpa using List.mem_takeWhile_imp hd⟩
          · intro d hd
            simpa [Option.mem_def.mp hd] using hstop

/-! ### Trimming -/

/-- Nothing but white space at the ends is trimmed. -/
theorem exists_trim (s : List Char) : ∃ front behind : List Char,
    (∀ c ∈ front, isWhite c) ∧ (∀ c ∈ behind, isWhite c) ∧ s = front ++ trim s ++ behind := by
  let turned := (trimStart s).reverse
  refine ⟨s.takeWhile isWhite, (turned.takeWhile isWhite).reverse, ?_, ?_, ?_⟩
  · exact fun c => List.mem_takeWhile_imp
  · exact fun c hc => List.mem_takeWhile_imp (List.mem_reverse.mp hc)
  · have hturned : turned.reverse = trim s ++ (turned.takeWhile isWhite).reverse := by
      rw [trim, ← List.reverse_append]
      exact congrArg List.reverse List.takeWhile_append_dropWhile.symm
    calc
      s = s.takeWhile isWhite ++ trimStart s := List.takeWhile_append_dropWhile.symm
      _ = s.takeWhile isWhite ++ turned.reverse := by rw [List.reverse_reverse]
      _ = _ := by rw [hturned, List.append_assoc]

theorem mem_trim (hc : ¬isWhite c) (hmem : c ∈ s) : c ∈ trim s := by
  obtain ⟨front, behind, hfront, hbehind, hs⟩ := exists_trim s
  rw [hs, List.mem_append, List.mem_append] at hmem
  rcases hmem with (hmem | hmem) | hmem
  · exact absurd (hfront c hmem) hc
  · exact hmem
  · exact absurd (hbehind c hmem) hc

theorem trimStart_eq_self (hfirst : ∀ c ∈ s.head?, ¬isWhite c) : trimStart s = s := by
  cases s with
  | nil => rfl
  | cons c s => exact List.dropWhile_cons_of_neg (hfirst c rfl)

theorem trim_eq_self (hfirst : trimStart s = s) (hlast : ∀ c ∈ s.getLast?, ¬isWhite c) :
    trim s = s := by
  have hlast : trimStart s.reverse = s.reverse := by
    apply trimStart_eq_self
    rwa [List.head?_reverse]
  rw [trim, hfirst, hlast, List.reverse_reverse]

end FieldSearch.Text
