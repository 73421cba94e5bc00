/-!
White space in the Unicode sense: the characters with the property `White_Space`. Names, literals
and type names are trimmed and split by it. The query language has a narrower notion of its own,
see `Query.isGap`.
-/

namespace FieldSearch.Text

def isWhite (c : Char) : Bool :=
  let n := c.toNat
  (9 ≤ n && n ≤ 13) || n == 0x20 || n == 0x85 || n == 0xA0 || n == 0x1680 ||
    (0x2000 ≤ n && n ≤ 0x200A) || n == 0x2028 || n == 0x2029 || n == 0x202F || n == 0x205F ||
    n == 0x3000

def trimStart (s : List Char) : List Char :=
  s.dropWhile isWhite

/-- Without the white space at both ends. -/
def trim (s : List Char) : List Char :=
  (trimStart (trimStart s).reverse).reverse

/-- White space only, or nothing at all. -/
def isBlank (s : String) : Bool :=
  s.toList.all isWhite

theorem isBlank_iff {text : String} : isBlank text ↔ ∀ c ∈ text.toList, isWhite c := by
  simp [isBlank]

theorem not_isBlank_iff {text : String} : ¬isBlank text ↔ ∃ c ∈ text.toList, ¬isWhite c := by
  simp [isBlank]

/-- The maximal runs of characters that are not white space. -/
def words : List Char → List (List Char)
  | [] => []
  | c :: r =>
    if isWhite c then words r
    else
      match r with
      | [] => [[c]]
      | d :: _ =>
        if isWhite d then [c] :: words r
        else
          match words r with
          | [] => [[c]]
          | w :: ws => (c :: w) :: ws

/-- ASCII letters in lower case, everything else as it is. -/
def lowerAscii (s : List Char) : List Char :=
  s.map Char.toLower

end FieldSearch.Text
