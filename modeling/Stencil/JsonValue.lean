import Stencil.FloatText

/-!
# JSON values

A number is an integer or a finite double, which is given by its bits. The members of an
object have different keys.
-/
namespace Stencil

inductive JsonValue
  | null
  | bool (value : Bool)
  | integer (value : Int)
  | double (bits : UInt64)
  | string (value : Text)
  | array (items : List JsonValue)
  | object (members : List (Text × JsonValue))
deriving Inhabited

/-- The value of a double: there are no infinite numbers in JSON, and what is not a number becomes
null. -/
def JsonValue.ofDouble (bits : UInt64) : JsonValue :=
  match FloatLayout.double.decode bits.toNat with
  | .nan => .null
  | .infinite _ => .null
  | .zero _ => .double bits
  | .finite _ _ => .double bits

end Stencil
