import Interposition.Decimal.Notation
import Interposition.Text.Inspect
import Interposition.Text.Quoted
import Interposition.Text.Utf8
/-!
Scalar values: what constants are bound to and handlers pass around.
-/

namespace Interposition

/-- A scalar value. -/
inductive Value where
  | null
  | bool (value : Bool)
  | int (value : Int64)
  | float (value : Float)
  | bytes (bytes : List UInt8)
deriving Repr, Inhabited

namespace Value

/-- The bytes of a byte string. -/
def bytes? : Value → Option (List UInt8)
  | .bytes content => some content
  | _ => none

/-- Equality within a kind.  Floating-point numbers compare as numbers do: an
undefined number differs from itself, and the two zeros are equal. -/
def equal : Value → Value → Bool
  | .null, .null => true
  | .bool first, .bool second => first == second
  | .int first, .int second => first == second
  | .float first, .float second => first == second
  | .bytes first, .bytes second => first == second
  | _, _ => false

instance : BEq Value := ⟨equal⟩

/-- The value as text, for messages. -/
def display : Value → String
  | .null => "null"
  | .bool value => toString value
  | .int value => toString value.toInt
  | .float value => String.ofList (Decimal.Notation.plain.write value)
  | .bytes content => String.ofList (Text.quote (Text.Utf8.lossy content))

/-- The inspection form of a value. -/
def inspect : Value → String
  | .null => "Null"
  | .bool value => Text.Inspect.tagged "Bool" (toString value)
  | .int value => Text.Inspect.tagged "Int" (toString value.toInt)
  | .float value =>
    Text.Inspect.tagged "Float" (String.ofList (Decimal.Notation.inspect.write value))
  | .bytes content =>
    Text.Inspect.tagged "Bytes"
      (Text.Inspect.list (content.map fun byte => toString byte.toNat))

end Value
end Interposition
