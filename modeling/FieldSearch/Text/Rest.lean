/-!
What is left of a text once something has been read from its front. Readers hand over a rest that is
shorter than the text they were given, so that a reader that reads the rest again ends.
-/

namespace FieldSearch

/-- A rest of `text` that is shorter than `text`. -/
structure Rest (text : List Char) where
  chars : List Char
  shorter : chars.length < text.length

namespace Rest

/-- A rest of a rest, or of a text no longer than it. -/
def within {text : List Char} {inner : List Char} (rest : Rest inner)
    (le : inner.length ≤ text.length) : Rest text :=
  ⟨rest.chars, Nat.lt_of_lt_of_le rest.shorter le⟩

/-- The rest after the first character. -/
def tail {c : Char} {chars : List Char} : Rest (c :: chars) :=
  ⟨chars, by simp⟩

/-- The rest after the first character, if there is one that satisfies `p`. -/
def first? (p : Char → Bool) : (text : List Char) → Option (Rest text)
  | [] => none
  | c :: _ => if p c then some .tail else none

/-- A rest of what stands behind the first character. -/
def behind {c : Char} {chars : List Char} (rest : Rest chars) : Rest (c :: chars) :=
  rest.within (by simp)

/-- A rest of a rest. -/
def after {text : List Char} (rest : Rest text) (last : Rest rest.chars) : Rest text :=
  last.within (Nat.le_of_lt rest.shorter)

theorem lt {text : List Char} (rest : Rest text) {n : Nat} (h : text.length < n) :
    rest.chars.length < n :=
  Nat.lt_trans rest.shorter h

end Rest

theorem length_lt_cons (c : Char) (chars : List Char) : chars.length < (c :: chars).length := by
  simp

theorem length_dropWhile_le {α : Type} (p : α → Bool) (xs : List α) :
    (xs.dropWhile p).length ≤ xs.length :=
  (List.dropWhile_suffix p).length_le

end FieldSearch
