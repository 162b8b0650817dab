import Infill.Json.Printer

/-!
# Values as text

How a value reads once it stands in a text.  Strings stand as they are, a double with nothing behind
the point is written without one, any other number as in JSON, arrays join their items with commas, and
an object is only named as one.
-/

set_option autoImplicit false

namespace Infill

/-- A double without digits behind the point: its sign, and its absolute value rounded to a whole number, a
half to the even neighbour.  Every digit of that is written, and zero keeps its sign. -/
def Double.wholeText (x : Double) : Text :=
  (if x.negative then ['-'] else []) ++ Numeral.ofNat (Double.roundToEven x.ratio.1 x.ratio.2)

namespace Data

/-- The text that stands for any object. -/
def objectText : Text := "[object Object]".toList

/-- A number as text.  A double is finite, so that nothing but its form and what stands behind its point is
asked of it; a number that is kept as a whole number reads as in JSON. -/
def numberText (n : Number) : Text :=
  match n.nearest? with
  | some x =>
    if n.isDouble && x.isWhole then (if x.isZero then ['0'] else x.wholeText) else Json.numberText n
  | none => Json.numberText n

/-- A whole number reads as in JSON, whether there is a double near it or not. -/
theorem numberText_integer (n : Int) : numberText (.integer n) = Numeral.ofInt n := by
  unfold numberText
  cases (Number.integer n).nearest? <;> rfl

/-- A double reads by what stands behind its point. -/
theorem numberText_double (x : Double) : numberText (.double x) =
    if x.isWhole then (if x.isZero then ['0'] else x.wholeText) else Json.numberText (.double x) := rfl

mutual

/-- How a value reads in a text. -/
def display : Json → Text
  | .null => []
  | .bool b => Json.boolText b
  | .number n => numberText n
  | .string s => s
  | .array items => Text.joinWith [','] (displayItems items)
  | .object _ => objectText

/-- How the items of an array read, one by one. -/
def displayItems : List Json → List Text
  | [] => []
  | item :: items => display item :: displayItems items

end

/-- The text of a node that a path may have led to: nothing for no node and for a falsy one. -/
def displayFound : Option Json → Text
  | some value => if value.isFalsy then [] else display value
  | none => []

end Data
end Infill
