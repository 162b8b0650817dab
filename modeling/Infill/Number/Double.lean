/-!
# Finite doubles

A finite double-precision number is a sign, a mantissa and a power of two.  All arithmetic here is
exact arithmetic on whole numbers followed by one rounding to the nearest double, with ties to the
even mantissa.
-/

set_option autoImplicit false

namespace Infill

/-- The number `± mantissa * 2 ^ exponent`; zero keeps its sign. -/
structure Double where
  negative : Bool
  mantissa : Nat
  exponent : Int
  deriving DecidableEq, Repr

namespace Double

/-- The exponent of the smallest positive double. -/
def minExponent : Int := -1074

/-- The exponent of the largest doubles. -/
def maxExponent : Int := 971

/-- One way of writing each double: the mantissa has 53 bits, or fewer at the least exponent. -/
structure IsNormal (x : Double) : Prop where
  mantissa_lt : x.mantissa < Nat.pow 2 53
  minExponent_le : minExponent ≤ x.exponent
  exponent_le : x.exponent ≤ maxExponent
  full : x.exponent = minExponent ∨ Nat.pow 2 52 ≤ x.mantissa

/-- Zero, with its sign. -/
def zero (negative : Bool) : Double := ⟨negative, 0, minExponent⟩

/-- Whether a double is zero, of either sign. -/
def isZero (x : Double) : Bool := x.mantissa == 0

/-- The absolute value as a fraction of whole numbers. -/
def ratio (x : Double) : Nat × Nat :=
  if 0 ≤ x.exponent then (x.mantissa * Nat.pow 2 x.exponent.toNat, 1)
  else (x.mantissa, Nat.pow 2 (-x.exponent).toNat)

/-- `num / den` rounded to the nearest whole number, a half to the even neighbour. -/
def roundToEven (num den : Nat) : Nat :=
  let quotient := num / den
  let twice := 2 * (num % den)
  if twice < den then quotient
  else if den < twice then quotient + 1
  else if quotient % 2 = 0 then quotient else quotient + 1

/-- The largest `k` with `2 ^ k ≤ num / den`, for positive `num` and `den`. -/
def floorLog2 (num den : Nat) : Int :=
  let k : Int := (num.log2 : Int) - den.log2
  let reached :=
    if 0 ≤ k then decide (den * Nat.pow 2 k.toNat ≤ num)
    else decide (den ≤ num * Nat.pow 2 (-k).toNat)
  if reached then k else k - 1

/-- The double nearest to `± num / den`, and nothing if it would be infinite. -/
def ofRatio? (negative : Bool) (num den : Nat) : Option Double :=
  if num = 0 then some (zero negative)
  else
    let exponent := max minExponent (floorLog2 num den - 52)
    let mantissa :=
      if 0 ≤ exponent then roundToEven num (den * Nat.pow 2 exponent.toNat)
      else roundToEven (num * Nat.pow 2 (-exponent).toNat) den
    let x : Double :=
      if mantissa = Nat.pow 2 53 then ⟨negative, Nat.pow 2 52, exponent + 1⟩
      else ⟨negative, mantissa, exponent⟩
    if x.exponent ≤ maxExponent then some x else none

/-- The double nearest to a whole number, with a sign. -/
def ofNat? (negative : Bool) (n : Nat) : Option Double := ofRatio? negative n 1

/-- The product of two absolute values, rounded once, with the sign of the first. -/
def mul? (x y : Double) : Option Double :=
  ofRatio? x.negative (x.ratio.1 * y.ratio.1) (x.ratio.2 * y.ratio.2)

/-- The quotient of two absolute values, rounded once, with the sign of the first. -/
def div? (x y : Double) : Option Double :=
  ofRatio? x.negative (x.ratio.1 * y.ratio.2) (x.ratio.2 * y.ratio.1)

/-- The largest power of ten that is a double. -/
def maxTenPower : Nat := 308

/-- `x * 10 ^ power`, computed with one rounded factor of ten at a time: a power within reach is one
factor, and a smaller one divides by `10 ^ 308` first.  `steps` bounds those divisions; after three
of them nothing is left of any 64-bit number. -/
def scaleByTen? (steps : Nat) (x : Double) (power : Int) : Option Double :=
  if power.natAbs ≤ maxTenPower then
    match ofNat? false (Nat.pow 10 power.natAbs) with
    | some factor => if 0 ≤ power then mul? x factor else div? x factor
    | none => none
  else if x.isZero then some x
  else if 0 ≤ power then none
  else
    match steps with
    | 0 => some (zero x.negative)
    | steps + 1 => do
      let factor ← ofNat? false (Nat.pow 10 maxTenPower)
      let x ← div? x factor
      scaleByTen? steps x (power + maxTenPower)

/-- Whether nothing is left of a double behind the point. -/
def isWhole (x : Double) : Bool := x.ratio.1 % x.ratio.2 == 0

end Double
end Infill
