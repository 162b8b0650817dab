import Infill.Keyed
import Infill.Number.Double

/-!
# JSON values

The data that templates are filled with.  A number is either a whole number of 64 bits or a finite
double, and the two are told apart: `1` and `1.0` are different values.  Objects keep their members
in the order of their keys.
-/

set_option autoImplicit false

namespace Infill

/-- A number: a whole number, or a double. -/
inductive Number where
  /-- A whole number, written without fraction and exponent. -/
  | integer (n : Int)
  | double (x : Double)
  deriving DecidableEq, Repr

namespace Number

/-- The numbers a document can hold: whole numbers from `-2 ^ 63` to `2 ^ 64 - 1` and normal doubles. -/
def InRange : Number → Prop
  | .integer n => -(Nat.pow 2 63 : Int) ≤ n ∧ n < (Nat.pow 2 64 : Int)
  | .double x => x.IsNormal

/-- Whether the number is kept as a double. -/
def isDouble : Number → Bool
  | .integer _ => false
  | .double _ => true

/-- The double nearest to a number, unless that is infinite. -/
def nearest? : Number → Option Double
  | .integer n => Double.ofNat? (decide (n < 0)) n.natAbs
  | .double x => some x

/-- Whether the double nearest to a number is zero, of either sign. -/
def isZero (n : Number) : Bool := n.nearest?.any (·.isZero)

end Number

/-- A JSON value; an object holds its members as keys with values. -/
inductive Json where
  | null
  | bool (b : Bool)
  | number (n : Number)
  | string (s : Text)
  | array (items : List Json)
  | object (members : List (Text × Json))
  deriving Repr

namespace Json

/-- The object without members. -/
def empty : Json := .object []

/-- Null, `false`, zero and the empty string.  Arrays and objects are never falsy. -/
def isFalsy : Json → Bool
  | .null => true
  | .bool b => !b
  | .number n => n.isZero
  | .string s => s.isEmpty
  | .array _ => false
  | .object _ => false

end Json
end Infill
