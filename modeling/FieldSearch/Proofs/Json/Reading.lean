import Mathlib.Data.List.Forall2
import FieldSearch.Json.Writer

/-! What readers make of texts that were written. A reader takes what is written for a value from
the front of a text, whatever stands behind it; or it refuses the text because the value does not
fit, for which the only reason here will be its depth. Strings, arrays and objects are put together
from their parts once, for documents of any kind and for the records that have readers of their own.
-/

namespace FieldSearch.Json

variable {α β σ : Type} {n : Nat}

/-- What a reading comes to: the value with what is left of the text, if the value fits, and a
malformed text else. -/
inductive Settles {s : List Char} (fits : Prop) (a : α) (rest : List Char)
    (result : Except Fault (α × Rest s)) : Prop
  | taken (left : Rest s) : fits → result = .ok (a, left) → left.chars = rest →
      Settles fits a rest result
  | refused : ¬fits → result = .error .malformed → Settles fits a rest result

namespace Settles

variable {s t rest last : List Char} {fits more : Prop} {a : α} {b : β}
  {result : Except Fault (α × Rest s)}

theorem cases_result (hread : Settles fits a rest result) :
    (fits ∧ ∃ shorter, result = .ok (a, ⟨rest, shorter⟩)) ∨
      ¬fits ∧ result = .error .malformed := by
  cases hread with
  | taken left hfits hread hchars =>
      obtain ⟨chars, shorter⟩ := left
      obtain rfl : chars = rest := hchars
      exact .inl ⟨hfits, shorter, hread⟩
  | refused hfits hread => exact .inr ⟨hfits, hread⟩

/-- What fits in any case is taken. -/
theorem exists_ok (hread : Settles fits a rest result) (hfits : fits) :
    ∃ shorter, result = .ok (a, ⟨rest, shorter⟩) := by
  rcases hread.cases_result with ⟨-, hread⟩ | ⟨hno, -⟩
  · exact hread
  · exact absurd hfits hno

theorem congr (hread : Settles fits a rest result) (hfits : fits ↔ more) :
    Settles more a rest result := by
  rwa [propext hfits] at hread

/-- The value may be put into another, and what was left is left of a longer text. -/
theorem map (hread : Settles fits a rest result) (f : α → β) (within : Rest s → Rest t)
    (hwithin : ∀ rest, (within rest).chars = rest.chars) :
    Settles fits (f a) rest (result.map fun (a, rest) => (f a, within rest)) := by
  cases hread with
  | taken left hfits hread hchars =>
      exact .taken (within left) hfits (by rw [hread]; rfl) ((hwithin left).trans hchars)
  | refused hfits hread => exact .refused hfits (by rw [hread]; rfl)

/-- What follows a reading settles as well, if it passes on that the text is malformed. -/
theorem andThen (hread : Settles fits a rest result) {outcome : Except Fault (β × Rest t)}
    (hfails : result = .error .malformed → outcome = .error .malformed)
    (hnext : ∀ shorter, result = .ok (a, ⟨rest, shorter⟩) → Settles more b last outcome) :
    Settles (fits ∧ more) b last outcome := by
  rcases hread.cases_result with ⟨hfits, shorter, hread⟩ | ⟨hfits, hread⟩
  · exact (hnext shorter hread).congr (by simp [hfits])
  · exact .refused (fun hboth => hfits hboth.1) (hfails hread)

/-- Nothing more is read. -/
theorem into (hread : Settles fits a rest result) {outcome : Except Fault (β × Rest t)}
    (hfails : result = .error .malformed → outcome = .error .malformed)
    (htaken : ∀ shorter, result = .ok (a, ⟨rest, shorter⟩) →
      ∃ left : Rest t, outcome = .ok (b, left) ∧ left.chars = last) :
    Settles fits b last outcome := by
  refine (hread.andThen hfails fun shorter hread => ?_).congr (and_iff_left trivial)
  obtain ⟨left, houtcome, hchars⟩ := htaken shorter hread
  exact .taken left trivial houtcome hchars

end Settles

/-! ### Blanks and marks -/

theorem skipBlanks_append {blanks : List Char} (hblanks : ∀ c ∈ blanks, isBlank c) {c : Char}
    (hc : isBlank c = false) (s : List Char) : skipBlanks (blanks ++ c :: s) = c :: s := by
  simp [skipBlanks, List.dropWhile_append_of_pos hblanks, hc]

theorem next?_of_skipBlanks {s r : List Char} {c : Char} (hs : skipBlanks s = c :: r) :
    ∃ shorter, next? s = some (c, ⟨r, shorter⟩) := by
  unfold next?
  split
  next hempty => simp [hempty] at hs
  next d q hfound =>
    have hle := length_skipBlanks_le s
    rw [hfound] at hs hle
    obtain ⟨rfl, rfl⟩ := List.cons.inj hs
    exact ⟨hle, rfl⟩

theorem mark_of_skipBlanks {s r : List Char} {c : Char} (hs : skipBlanks s = c :: r) :
    ∃ shorter, mark c s = .ok ⟨r, shorter⟩ := by
  have hexactly : ∀ t, t = c :: r → ∃ shorter, exactly c t = .ok ⟨r, shorter⟩ := by
    rintro _ rfl
    exact ⟨_, if_pos rfl⟩
  obtain ⟨shorter, hfound⟩ := hexactly _ hs
  have hle := length_skipBlanks_le s
  exact ⟨by omega, by rw [mark, hfound]; rfl⟩

/-- A reader behind blanks reads what stands there. -/
theorem settles_afterBlanks {reader : ReaderBelow n α} {fits : Prop} {a : α}
    {s inner rest : List Char} (hskip : skipBlanks s = inner)
    (hread : ∀ h, Settles fits a rest (reader inner h)) (h : s.length < n) :
    Settles fits a rest (reader.afterBlanks s h) := by
  subst hskip
  exact (hread _).map id behindBlanks fun _ => rfl

/-- Blanks stand between the parts of an array or object, and a comma or a colon before them. -/
structure Spacing.IsNeutral (spacing : Spacing) : Prop where
  opening : ∀ depth, ∀ c ∈ spacing.opening depth, isBlank c
  between : ∀ depth, ∃ blanks, spacing.between depth = ',' :: blanks ∧ ∀ c ∈ blanks, isBlank c
  closing : ∀ depth, ∀ c ∈ spacing.closing depth, isBlank c
  colon : ∃ blanks, spacing.colon = ':' :: blanks ∧ ∀ c ∈ blanks, isBlank c

theorem Spacing.compact_isNeutral : Spacing.compact.IsNeutral :=
  ⟨by simp [compact], fun _ => ⟨[], rfl, by simp⟩, by simp [compact], ⟨[], rfl, by simp⟩⟩

theorem Spacing.indented_isNeutral : Spacing.indented.IsNeutral := by
  have hline : ∀ depth, ∀ c ∈ newLine depth, isBlank c := by
    intro depth c hc
    simp only [newLine, List.mem_cons, List.mem_replicate] at hc
    rcases hc with rfl | ⟨-, rfl⟩ <;> decide
  refine ⟨fun depth => hline _, fun depth => ⟨_, rfl, hline _⟩, fun depth => hline _,
    ⟨[' '], rfl, fun c hc => ?_⟩⟩
  rw [List.mem_singleton.mp hc]
  rfl

/-! ### Strings -/

theorem hexValue?_lowerHex {m : Nat} (hm : m < 16) : hexValue? (lowerHex m) = some m := by
  have hall : ∀ m < 16, hexValue? (lowerHex m) = some m := by decide
  exact hall m hm

/-- The code of a control character is read as the character. -/
theorem codePoint_control {c : Char} (hc : c.toNat < 0x20) (depth : Nat) (rest : List Char) :
    Settles True c rest (codePoint (.keep depth)
      ('0' :: '0' :: lowerHex (c.toNat / 16) :: lowerHex (c.toNat % 16) :: rest)) := by
  have hhigh := hexValue?_lowerHex (m := c.toNat / 16) (by omega)
  have hlow := hexValue?_lowerHex (m := c.toNat % 16) (by omega)
  have hcode : ((0 * 16 + 0) * 16 + c.toNat / 16) * 16 + c.toNat % 16 = c.toNat := by omega
  have hzero : hexValue? '0' = some 0 := rfl
  have hsurrogate : isLowSurrogate c.toNat = false ∧ isHighSurrogate c.toNat = false := by
    simp only [isLowSurrogate, isHighSurrogate, Bool.and_eq_false_iff, decide_eq_false_iff_not]
    omega
  simp only [codePoint, unit, hzero, hhigh, hlow, hcode, Purpose.isSkip, hsurrogate,
    Bool.false_eq_true, if_false, Char.ofNat_toNat]
  exact .taken _ trivial rfl rfl

/-- A character of a string stands for itself, or what is written behind a backslash is read as the
character. -/
theorem writtenChar_cases (c : Char) :
    (writtenChar c = [c] ∧ c ≠ '"' ∧ c ≠ '\\' ∧ ¬c.toNat < 0x20) ∨
      ∃ behind, writtenChar c = '\\' :: behind ∧
        ∀ depth rest, Settles True c rest (escaped (.keep depth) (behind ++ rest)) := by
  unfold writtenChar
  iterate 7
    split
    next hc =>
      subst hc
      exact .inr ⟨_, rfl, fun _ _ => .taken _ trivial rfl rfl⟩
  split
  next hcontrol =>
    exact .inr ⟨_, rfl, fun depth rest =>
      (codePoint_control hcontrol depth rest).map id Rest.behind fun _ => rfl⟩
  next hquote hslash _ _ _ _ _ hcontrol => exact .inl ⟨rfl, hquote, hslash, hcontrol⟩

/-- A string is read up to the quote that closes it. -/
theorem stringChars_written (depth : Nat) (chars rest : List Char) :
    Settles True chars rest
      (stringChars (.keep depth) (chars.flatMap writtenChar ++ '"' :: rest)) := by
  induction chars with
  | nil =>
      rw [List.flatMap_nil, List.nil_append, stringChars]
      exact .taken _ trivial rfl rfl
  | cons c chars ih =>
      rw [List.flatMap_cons, List.append_assoc]
      obtain ⟨shorter, hread⟩ := ih.exists_ok trivial
      rcases writtenChar_cases c with ⟨hself, hquote, hslash, hcontrol⟩ | ⟨behind, hbehind, hc⟩
      · rw [hself, List.singleton_append, stringChars]
        simp only [hquote, hslash, hcontrol, if_false, hread]
        exact .taken _ trivial rfl rfl
      · rw [hbehind, List.cons_append, stringChars]
        obtain ⟨_, hc⟩ := (hc depth (chars.flatMap writtenChar ++ '"' :: rest)).exists_ok trivial
        rw [if_neg (by decide), if_pos rfl, hc]
        simp only [hread]
        exact .taken _ trivial rfl rfl

theorem openedString_written (depth : Nat) (text : String) (rest : List Char) :
    Settles True text rest
      (openedString (.keep depth) (text.toList.flatMap writtenChar ++ '"' :: rest)) := by
  have hread := (stringChars_written depth text.toList rest).map String.ofList id fun _ => rfl
  rwa [String.ofList_toList] at hread

/-! ### Arrays and objects -/

/-- A document without numbers. -/
inductive IsPlain : Json → Prop
  | null : IsPlain .null
  | boolean {value} : IsPlain (.boolean value)
  | string {value} : IsPlain (.string value)
  | array {items} : (∀ item ∈ items, IsPlain item) → IsPlain (.array items)
  | object {members} : (∀ member ∈ members, IsPlain member.2) → IsPlain (.object members)

/-- No document begins with a blank or with the bracket that closes an array. -/
theorem IsPlain.exists_write_eq_cons {json : Json} (hplain : json.IsPlain) (spacing : Spacing)
    (depth : Nat) :
    ∃ c s, write spacing depth json = c :: s ∧ isBlank c = false ∧ c ≠ ']' := by
  cases hplain with
  | null => exact ⟨_, _, rfl, by decide⟩
  | @boolean value => cases value <;> exact ⟨_, _, rfl, by decide⟩
  | string => exact ⟨_, _, rfl, by decide⟩
  | @array items => cases items <;> exact ⟨_, _, rfl, by decide⟩
  | @object members =>
      rcases members with _ | ⟨⟨key, value⟩, members⟩ <;> exact ⟨_, _, rfl, by decide⟩

section Parts

variable {spacing : Spacing} {depth : Nat} {fits : Json → Prop}

/-- The reader takes a document, as it is written, for a value, whatever stands behind it. -/
def ReaderBelow.Takes (reader : ReaderBelow n α) (spacing : Spacing) (depth : Nat)
    (fits : Json → Prop) (json : Json) (a : α) : Prop :=
  ∀ rest (h : (write spacing depth json ++ rest).length < n),
    Settles (fits json) a rest (reader (write spacing depth json ++ rest) h)

/-- Blanks may stand before it. -/
theorem ReaderBelow.Takes.afterBlanks {reader : ReaderBelow n α} {json : Json} {a : α}
    (htakes : reader.Takes spacing depth fits json a) (hplain : json.IsPlain)
    {blanks s rest : List Char} (hblanks : ∀ c ∈ blanks, isBlank c)
    (hs : s = blanks ++ (write spacing depth json ++ rest)) (h : s.length < n) :
    Settles (fits json) a rest (reader.afterBlanks s h) := by
  obtain ⟨c, inner, hwrite, hc, -⟩ := hplain.exists_write_eq_cons spacing depth
  refine settles_afterBlanks ?_ (htakes rest) h
  rw [hs, hwrite, List.cons_append, skipBlanks_append hblanks hc]

/-- An item stands behind blanks, and the array is not closed there. -/
theorem IsPlain.next?_ne_close {json : Json} (hplain : json.IsPlain) {blanks s rest : List Char}
    (hblanks : ∀ c ∈ blanks, isBlank c)
    (hs : s = blanks ++ (write spacing depth json ++ rest)) :
    ∃ c following, next? s = some (c, following) ∧ c ≠ ']' := by
  obtain ⟨c, inner, hwrite, hc, hclose⟩ := hplain.exists_write_eq_cons spacing depth
  have hskip : skipBlanks s = c :: (inner ++ rest) := by
    rw [hs, hwrite, List.cons_append, skipBlanks_append hblanks hc]
  obtain ⟨shorter, hnext⟩ := next?_of_skipBlanks hskip
  exact ⟨c, _, hnext, hclose⟩

/-- Items behind an item are read up to the bracket that closes the array. -/
theorem moreElements_written (hspacing : spacing.IsNeutral) {reader : ReaderBelow n α}
    {items : List Json} {values : List α} (hplain : ∀ item ∈ items, item.IsPlain)
    (htakes : List.Forall₂ (reader.Takes spacing (depth + 1) fits) items values)
    {s rest : List Char}
    (hs : s = writeItems spacing depth items ++ (spacing.closing depth ++ ']' :: rest))
    (h : s.length < n) :
    Settles (∀ item ∈ items, fits item) values rest (moreElements reader s h) := by
  induction htakes generalizing s with
  | nil =>
      have hskip : skipBlanks s = ']' :: rest := by
        rw [hs]
        exact skipBlanks_append (hspacing.closing depth) (by decide) rest
      obtain ⟨shorter, hnext⟩ := next?_of_skipBlanks hskip
      rw [moreElements, hnext]
      exact .taken _ (by simp) rfl rfl
  | @cons item value items values hitem _ ih =>
      obtain ⟨blanks, hbetween, hblanks⟩ := hspacing.between depth
      have hitemPlain := hplain item (by simp)
      have hskip : skipBlanks s = ',' :: (blanks ++ (write spacing (depth + 1) item ++
          (writeItems spacing depth items ++ (spacing.closing depth ++ ']' :: rest)))) := by
        rw [hs, writeItems, hbetween]
        simp [skipBlanks, isBlank]
      obtain ⟨hlt, hnext⟩ := next?_of_skipBlanks hskip
      obtain ⟨c, following, hfollowing, hclose⟩ := hitemPlain.next?_ne_close hblanks rfl
      have hread := hitem.afterBlanks hitemPlain hblanks rfl (Nat.lt_trans hlt h)
      rw [moreElements, hnext]
      dsimp only
      rw [if_neg (by decide), if_pos rfl, hfollowing]
      dsimp only
      rw [if_neg hclose]
      rw [List.forall_mem_cons]
      refine hread.andThen (fun hread => by rw [hread]) fun shorter hread => ?_
      have hmore := ih (fun item hmem => hplain item (by simp [hmem])) rfl
        (Nat.lt_trans shorter (Nat.lt_trans hlt h))
      rw [hread]
      dsimp only
      exact hmore.into (fun hmore => by rw [hmore]) fun _ hmore => ⟨_, by rw [hmore], rfl⟩

theorem exists_write_array (spacing : Spacing) (depth : Nat) (items : List Json)
    (rest : List Char) :
    ∃ s, write spacing depth (.array items) ++ rest = '[' :: s := by
  cases items <;> exact ⟨_, rfl⟩

/-- The items of an array that was written are read, and the bracket that closes it. -/
theorem elements_written (hspacing : spacing.IsNeutral) {reader : ReaderBelow n α}
    {items : List Json} {values : List α} (hplain : ∀ item ∈ items, item.IsPlain)
    (htakes : List.Forall₂ (reader.Takes spacing (depth + 1) fits) items values)
    {s rest : List Char} (hs : write spacing depth (.array items) ++ rest = '[' :: s)
    (h : s.length < n) :
    Settles (∀ item ∈ items, fits item) values rest (elements reader s h) := by
  cases htakes with
  | nil =>
      obtain rfl : ']' :: rest = s := (List.cons.inj hs).2
      obtain ⟨shorter, hnext⟩ := next?_of_skipBlanks (s := ']' :: rest) rfl
      rw [elements, hnext]
      exact .taken _ (by simp) rfl rfl
  | @cons item value items values hitem hitems =>
      have hitemPlain := hplain item (by simp)
      have hs : s = spacing.opening depth ++ (write spacing (depth + 1) item ++
          (writeItems spacing depth items ++ (spacing.closing depth ++ ']' :: rest))) := by
        simpa [write] using hs.symm
      obtain ⟨c, following, hnext, hclose⟩ :=
        hitemPlain.next?_ne_close (hspacing.opening depth) hs
      have hread := hitem.afterBlanks hitemPlain (hspacing.opening depth) hs h
      rw [elements, hnext]
      dsimp only
      rw [if_neg hclose]
      rw [List.forall_mem_cons]
      refine hread.andThen (fun hread => by rw [hread]) fun shorter hread => ?_
      have hmore := moreElements_written hspacing (fun item hmem => hplain item (by simp [hmem]))
        hitems rfl (Nat.lt_trans shorter h)
      rw [hread]
      dsimp only
      exact hmore.into (fun hmore => by rw [hmore]) fun _ hmore => ⟨_, by rw [hmore], rfl⟩

/-- From one state to another, the members are taken one by one, each by the reader for its key. -/
inductive Gathers (item : σ → String → Except Fault (ReaderBelow n σ)) (spacing : Spacing)
    (depth : Nat) (fits : Json → Prop) : σ → List (String × Json) → σ → Prop
  | nil {state} : Gathers item spacing depth fits state [] state
  | cons {state next final : σ} {key value members} {reader : ReaderBelow n σ} :
      item state key = .ok reader → reader.Takes spacing depth fits value next →
      Gathers item spacing depth fits next members final →
      Gathers item spacing depth fits state ((key, value) :: members) final

theorem Gathers.append {fits : Json → Prop} {state middle final : σ}
    {parts more : List (String × Json)}
    (hparts : Gathers item spacing depth fits state parts middle)
    (hmore : Gathers item spacing depth fits middle more final) :
    Gathers item spacing depth fits state (parts ++ more) final := by
  induction hparts with
  | nil => exact hmore
  | cons hreader htakes _ ih => exact .cons hreader htakes (ih hmore)

/-- A member that was written, behind blanks. -/
theorem keyed_written (greatest : Nat) (hspacing : spacing.IsNeutral)
    {item : σ → String → Except Fault (ReaderBelow n σ)} {state next : σ} {key : String}
    {value : Json} {reader : ReaderBelow n σ} (hplain : value.IsPlain)
    (hreader : item state key = .ok reader) (htakes : reader.Takes spacing depth fits value next)
    {blanks s rest : List Char} (hblanks : ∀ c ∈ blanks, isBlank c)
    (hs : s = blanks ++ (writtenString key ++ (spacing.colon ++
      (write spacing depth value ++ rest))))
    (h : s.length < n) :
    Settles (fits value) next rest ((keyed (.keep greatest) item state).afterBlanks s h) := by
  obtain ⟨inside, hcolon, hinside⟩ := hspacing.colon
  have hskip : skipBlanks s = '"' :: (key.toList.flatMap writtenChar ++
      '"' :: (':' :: (inside ++ (write spacing depth value ++ rest)))) := by
    rw [hs, hcolon, writtenString]
    simpa using skipBlanks_append hblanks (by decide) _
  refine settles_afterBlanks hskip (fun hlt => ?_) h
  obtain ⟨hkey, hopened⟩ := (openedString_written greatest key
    (':' :: (inside ++ (write spacing depth value ++ rest)))).exists_ok trivial
  obtain ⟨hvalue, hmark⟩ := mark_of_skipBlanks (c := ':')
    (s := ':' :: (inside ++ (write spacing depth value ++ rest))) rfl
  rw [keyed, if_pos rfl, hopened]
  dsimp only
  rw [hreader]
  dsimp only
  rw [hmark]
  dsimp only
  have hread := htakes.afterBlanks hplain hinside rfl
    (Nat.lt_trans hvalue (Nat.lt_trans hkey (Nat.lt_trans (by simp) hlt)))
  exact hread.into (fun hread => by rw [hread]) fun _ hread => ⟨_, by rw [hread], rfl⟩

/-- Members behind a member are read up to the brace that closes the object. -/
theorem moreMembers_written (greatest : Nat) (hspacing : spacing.IsNeutral)
    {item : σ → String → Except Fault (ReaderBelow n σ)} {state final : σ}
    {parts : List (String × Json)} (hplain : ∀ member ∈ parts, member.2.IsPlain)
    (hgathers : Gathers item spacing (depth + 1) fits state parts final) {s rest : List Char}
    (hs : s = writeMembers spacing depth parts ++ (spacing.closing depth ++ '\x7d' :: rest))
    (h : s.length < n) :
    Settles (∀ member ∈ parts, fits member.2) final rest
      (moreMembers (.keep greatest) item state s h) := by
  induction hgathers generalizing s with
  | nil =>
      have hskip : skipBlanks s = '\x7d' :: rest := by
        rw [hs]
        exact skipBlanks_append (hspacing.closing depth) (by decide) rest
      obtain ⟨shorter, hnext⟩ := next?_of_skipBlanks hskip
      rw [moreMembers, hnext]
      exact .taken _ (by simp) rfl rfl
  | @cons state next final key value members reader hreader htakes _ ih =>
      obtain ⟨blanks, hbetween, hblanks⟩ := hspacing.between depth
      have hskip : skipBlanks s = ',' :: (blanks ++ (writtenString key ++ (spacing.colon ++
          (write spacing (depth + 1) value ++ (writeMembers spacing depth members ++
            (spacing.closing depth ++ '\x7d' :: rest)))))) := by
        rw [hs, writeMembers, hbetween]
        simp [skipBlanks, isBlank]
      obtain ⟨hlt, hnext⟩ := next?_of_skipBlanks hskip
      have hread := keyed_written greatest hspacing (hplain (key, value) (by simp))
        hreader htakes hblanks rfl (Nat.lt_trans hlt h)
      rw [moreMembers, hnext]
      dsimp only
      rw [if_neg (by decide), if_pos rfl]
      rw [List.forall_mem_cons]
      refine hread.andThen (fun hread => by rw [hread]) fun shorter hread => ?_
      have hmore := ih (fun member hmem => hplain member (by simp [hmem])) rfl
        (Nat.lt_trans shorter (Nat.lt_trans hlt h))
      rw [hread]
      dsimp only
      exact hmore.into (fun hmore => by rw [hmore]) fun _ hmore => ⟨_, by rw [hmore], rfl⟩

theorem exists_write_object (spacing : Spacing) (depth : Nat) (parts : List (String × Json))
    (rest : List Char) :
    ∃ s, write spacing depth (.object parts) ++ rest = '\x7b' :: s := by
  rcases parts with _ | ⟨⟨key, value⟩, members⟩ <;> exact ⟨_, rfl⟩

/-- The members of an object that was written are gathered, and the brace that closes it is read. -/
theorem members_written (greatest : Nat) (hspacing : spacing.IsNeutral)
    {item : σ → String → Except Fault (ReaderBelow n σ)} {state final : σ}
    {parts : List (String × Json)} (hplain : ∀ member ∈ parts, member.2.IsPlain)
    (hgathers : Gathers item spacing (depth + 1) fits state parts final) {s rest : List Char}
    (hs : write spacing depth (.object parts) ++ rest = '\x7b' :: s) (h : s.length < n) :
    Settles (∀ member ∈ parts, fits member.2) final rest
      (members (.keep greatest) item state s h) := by
  cases hgathers with
  | nil =>
      obtain rfl : '\x7d' :: rest = s := (List.cons.inj hs).2
      obtain ⟨shorter, hnext⟩ := next?_of_skipBlanks (s := '\x7d' :: rest) rfl
      rw [members, hnext]
      exact .taken _ (by simp) rfl rfl
  | @cons _ next _ key value parts reader hreader htakes hgathers =>
      have hs : s = spacing.opening depth ++ (writtenString key ++ (spacing.colon ++
          (write spacing (depth + 1) value ++ (writeMembers spacing depth parts ++
            (spacing.closing depth ++ '\x7d' :: rest))))) := by
        simpa [write] using hs.symm
      have hskip : ∃ inner, skipBlanks s = '"' :: inner := by
        rw [hs, writtenString]
        exact ⟨_, skipBlanks_append (hspacing.opening depth) (by decide) _⟩
      obtain ⟨inner, hskip⟩ := hskip
      obtain ⟨_, hnext⟩ := next?_of_skipBlanks hskip
      have hread := keyed_written greatest hspacing (hplain (key, value) (by simp))
        hreader htakes (hspacing.opening depth) hs h
      rw [members, hnext]
      dsimp only
      rw [if_neg (by decide)]
      rw [List.forall_mem_cons]
      refine hread.andThen (fun hread => by rw [hread]) fun shorter hread => ?_
      have hmore := moreMembers_written greatest hspacing
        (fun member hmem => hplain member (by simp [hmem])) hgathers rfl (Nat.lt_trans shorter h)
      rw [hread]
      dsimp only
      exact hmore.into (fun hmore => by rw [hmore]) fun _ hmore => ⟨_, by rw [hmore], rfl⟩

end Parts

/-! ### Faults -/

section Reported

variable {fault : Fault} {s inner value : List Char}

theorem afterBlanks_eq_error {reader : ReaderBelow n α} (hskip : skipBlanks s = inner)
    (hread : ∀ h, reader inner h = .error fault) (h : s.length < n) :
    reader.afterBlanks s h = .error fault := by
  subst hskip
  rw [ReaderBelow.afterBlanks, hread]
  rfl

/-- What is wrong with the first value of an object is reported as soon as it is met, whatever stands
behind it. -/
theorem members_eq_error (greatest : Nat) (item : σ → String → Except Fault (ReaderBelow n σ))
    (state : σ) (key : String) {reader : ReaderBelow n σ} (hreader : item state key = .ok reader)
    (hskip : skipBlanks value = inner) (hread : ∀ h, reader inner h = .error fault)
    (hs : s = writtenString key ++ ':' :: value) (h : s.length < n) :
    members (.keep greatest) item state s h = .error fault := by
  have hfront : skipBlanks s = '"' :: (key.toList.flatMap writtenChar ++ '"' :: ':' :: value) := by
    rw [hs, writtenString]
    simp [skipBlanks, isBlank]
  obtain ⟨_, hnext⟩ := next?_of_skipBlanks hfront
  obtain ⟨_, hopened⟩ := (openedString_written greatest key (':' :: value)).exists_ok trivial
  obtain ⟨_, hmark⟩ := mark_of_skipBlanks (c := ':') (s := ':' :: value) rfl
  have hkeyed : ∀ h, keyed (.keep greatest) item state
      ('"' :: (key.toList.flatMap writtenChar ++ '"' :: ':' :: value)) h = .error fault := by
    intro h
    rw [keyed, if_pos rfl, hopened]
    dsimp only
    rw [hreader]
    dsimp only
    rw [hmark]
    dsimp only
    rw [afterBlanks_eq_error hskip hread]
  rw [members, hnext]
  dsimp only
  rw [if_neg (by decide), afterBlanks_eq_error hfront hkeyed]

end Reported

end FieldSearch.Json
