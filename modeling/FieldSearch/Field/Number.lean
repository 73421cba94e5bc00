/-!
Numeric literals: digits, with a minus before them or a point and more digits behind them.
-/

namespace FieldSearch

def isDigits (s : List Char) : Bool :=
  !s.isEmpty && s.all Char.isDigit

def isNumber (text : String) : Bool :=
  let s := text.toList
  let unsigned := if s.head? = some '-' then s.tail else s
  let whole := unsigned.takeWhile (· != '.')
  match unsigned.dropWhile (· != '.') with
  | [] => isDigits whole
  | _ :: fraction => isDigits whole && isDigits fraction

end FieldSearch
