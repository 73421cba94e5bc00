/-!
The encoded form of a text, of which a character takes one to four bytes. Only lengths matter here.
-/

namespace FieldSearch.Text

/-- The number of bytes of the encoded text. -/
def utf8Length : List Char → Nat
  | [] => 0
  | c :: s => c.utf8Size + utf8Length s

/-- The characters in the first `bytes` bytes of the encoded text and those behind them, if no
character stands on both sides. -/
def splitAtByte : Nat → List Char → Option (List Char × List Char)
  | 0, s => some ([], s)
  | _ + 1, [] => none
  | bytes + 1, c :: s =>
    if c.utf8Size ≤ bytes + 1 then
      (splitAtByte (bytes + 1 - c.utf8Size) s).map fun (before, rest) => (c :: before, rest)
    else none

end FieldSearch.Text
