import Infill.Number.Double
import Infill.Number.Numeral

/-!
# Shortest decimals

The fewest decimal digits that still name a given double.  A decimal names the double when it lies
between the midpoints to the two neighbours, a midpoint itself counting for an even mantissa.
-/

set_option autoImplicit false

namespace Infill.Shortest

/-- A decimal `d.ddd * 10 ^ exponent`: its digits, the first of which is not zero, and its exponent. -/
structure Decimal where
  digits : Text
  exponent : Int
  deriving DecidableEq, Repr

/-- The `k` with `10 ^ k ≤ num / den < 10 ^ (k + 1)`, for positive `num` and `den`. -/
def floorLog10 (num den : Nat) : Int :=
  if den ≤ num then ((Numeral.ofNat (num / den)).length : Int) - 1
  else -((Numeral.ofNat ((den - 1) / num)).length : Int)

/-- Four times the lower midpoint, value and upper midpoint of a mantissa, in units of its exponent.
The gap below a power of two is half as wide as the gap above it. -/
def bounds (x : Double) : Nat × Nat × Nat :=
  let m := 4 * x.mantissa
  let gap := if x.mantissa = Nat.pow 2 52 ∧ x.exponent ≠ Double.minExponent then 1 else 2
  (m - gap, m, m + 2)

/-- `num / den` and `grid` brought to whole numbers: `num / den = a / c` and `10 ^ k = b / c`. -/
def onGrid (num den : Nat) (k : Int) : Nat × Nat :=
  if 0 ≤ k then (num, den * Nat.pow 10 k.toNat) else (num * Nat.pow 10 (-k).toNat, den)

/-- Whether `candidate * 10 ^ k` lies between the midpoints. -/
def names (low high den : Nat) (k : Int) (closed : Bool) (candidate : Nat) : Bool :=
  let (l, d) := onGrid low den k
  let (h, _) := onGrid high den k
  if closed then decide (l ≤ candidate * d) && decide (candidate * d ≤ h)
  else decide (l < candidate * d) && decide (candidate * d < h)

/-- Of the multiples of `10 ^ k` next to the value, the one that names it; of two, the nearer, and of
two equally near the even one. -/
def nearest? (low value high den : Nat) (k : Int) (closed : Bool) : Option Nat :=
  let (v, d) := onGrid value den k
  let below := v / d
  let twice := 2 * (v % d)
  let lowFits := names low high den k closed below
  let highFits := names low high den k closed (below + 1)
  if lowFits && highFits then
    if twice < d then some below
    else if d < twice then some (below + 1)
    else if below % 2 = 0 then some below else some (below + 1)
  else if lowFits then some below
  else if highFits then some (below + 1)
  else none

/-- The digits of `candidate` without trailing zeros, and the exponent of the first of them. -/
def ofCandidate (candidate : Nat) (k : Int) : Decimal :=
  let digits := Numeral.ofNat candidate
  ⟨(digits.reverse.dropWhile (· == '0')).reverse, k + digits.length - 1⟩

/-- The shortest decimal of a positive double.  Seventeen digits always suffice. -/
def ofDouble (x : Double) : Decimal :=
  let (low, value, high) := bounds x
  let scale := if 0 ≤ x.exponent then Nat.pow 2 x.exponent.toNat else 1
  let den := if 0 ≤ x.exponent then 4 else 4 * Nat.pow 2 (-x.exponent).toNat
  let top := floorLog10 (value * scale) den
  let closed := x.mantissa % 2 == 0
  let grids := (List.range 17).map fun (n : Nat) => top - Int.ofNat n
  match grids.findSome? fun k =>
      (nearest? (low * scale) (value * scale) (high * scale) den k closed).map (ofCandidate · k) with
  | some decimal => decimal
  | none => ofCandidate (value * scale / den) 0

end Infill.Shortest
