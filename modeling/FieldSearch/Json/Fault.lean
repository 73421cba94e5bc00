import FieldSearch.Json.Number
import FieldSearch.Text.Quoted

/-!
What may be wrong with a document. A text that is no document is malformed, or truncated if it ends too
early; a document whose values are not the ones wanted has a data fault.
-/

namespace FieldSearch.Json

/-- What stands where something else is wanted. -/
inductive Shape
  | null
  | boolean (value : Bool)
  | number (value : Number)
  | string (value : String)
  | sequence
  | map
  deriving DecidableEq, Repr

inductive DataFault
  | wrongType (found : Shape) (expected : String)
  | missingKey (key : String)
  | repeatedKey (key : String)
  | wrongLength (length : Nat) (expected : String)
  | unknownVariant (found : String) (known : List String)
  | wrongIndex (index : Nat) (bound : Nat)
  | severalKeys
  | unknownFieldType (name : String)
  deriving DecidableEq, Repr

inductive Fault
  | malformed
  | truncated
  | data (fault : DataFault)
  deriving DecidableEq, Repr

namespace Shape

def describe : Shape → String
  | null => "null"
  | boolean value => s!"boolean `{value}`"
  | number (.integer value) => s!"integer `{value}`"
  | number value => "floating point `" ++ value.text ++ "`"
  | string value => "string " ++ Text.quoted value
  | sequence => "sequence"
  | map => "map"

end Shape

def inTicks (name : String) : String :=
  "`" ++ name ++ "`"

def knownText : List String → String
  | [] => "there are no variants"
  | [a] => "expected " ++ inTicks a
  | [a, b] => "expected " ++ inTicks a ++ " or " ++ inTicks b
  | several => "expected one of " ++ ", ".intercalate (several.map inTicks)

def DataFault.message : DataFault → String
  | wrongType found expected => "invalid type: " ++ found.describe ++ ", expected " ++ expected
  | missingKey key => "missing field " ++ inTicks key
  | repeatedKey key => "duplicate field " ++ inTicks key
  | wrongLength length expected => s!"invalid length {length}, expected " ++ expected
  | unknownVariant found known => "unknown variant " ++ inTicks found ++ ", " ++ knownText known
  | wrongIndex index bound =>
    s!"invalid value: integer `{index}`, expected variant index 0 <= i < {bound}"
  | severalKeys => "invalid value: map, expected map with a single key"
  | unknownFieldType name => "Unknown field type: " ++ name

end FieldSearch.Json
