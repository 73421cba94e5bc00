/-!
Files as the program sees them: a text, or a reason why there is none.
-/

namespace FieldSearch

inductive FileFault
  | missing
  | notUtf8
  deriving DecidableEq, Repr

namespace FileFault

def message : FileFault → String
  | missing => "No such file or directory (os error 2)"
  | notUtf8 => "stream did not contain valid UTF-8"

end FileFault

/-- The text in a file with these bytes, if there is one. -/
def textOfBytes : Option ByteArray → Except FileFault String
  | none => .error .missing
  | some bytes =>
    match String.fromUTF8? bytes with
    | some text => .ok text
    | none => .error .notUtf8

end FieldSearch
