import Mathlib.Data.Int.Cast.Lemmas
import Mathlib.Tactic.Linarith
import Infill.Data.Display
import Infill.Proofs.Json.Scalars
import Infill.Proofs.Number.Rounding

/-!
# Whole numbers as text

What a number denotes is a rational number (`Number.toRat`), and a whole number may be denoted in several ways: as a
whole number, as a double, and zero as a double with either sign.  A double that denotes a whole number has nothing
behind its point, so that rounding loses nothing of it, however large it is, and its sign is that of the number unless
that is zero (`Double.wholeText_of_toRat`).  So the text of either form is the plain numeral of the whole number
(`numberText_of_toRat`), of which there is only one (`Numeral.isPlain_iff`).  Hence numbers that denote the same whole
number read alike and are falsy alike (`display_whole_number`).
-/

set_option autoImplicit false

namespace Infill

/-! ## What numbers denote -/

namespace Double

variable {x : Double}

/-- The rational number that a double stands for. -/
def toRat (x : Double) : ℚ := if x.negative then -x.magnitude else x.magnitude

/-- The absolute value of a double is a whole number if its fraction divides without a remainder. -/
theorem magnitude_eq_natCast_iff {n : Nat} :
    x.magnitude = n ↔ x.ratio.1 % x.ratio.2 = 0 ∧ x.ratio.1 / x.ratio.2 = n := by
  obtain ⟨hpos, hratio⟩ := x.ratio_spec
  have hne : (x.ratio.2 : ℚ) ≠ 0 := by exact_mod_cast hpos.ne'
  rw [← hratio, div_eq_iff hne]
  norm_cast
  constructor
  · intro h
    rw [h]
    exact ⟨Nat.mul_mod_left _ _, Nat.mul_div_cancel _ hpos⟩
  · rintro ⟨hmod, rfl⟩
    exact (Nat.div_mul_cancel (Nat.dvd_of_mod_eq_zero hmod)).symm

/-- A double has its absolute value, whatever its sign. -/
theorem abs_toRat (x : Double) : |x.toRat| = x.magnitude := by
  unfold toRat
  split_ifs
  · rw [abs_neg, abs_of_nonneg x.magnitude_nonneg]
  · rw [abs_of_nonneg x.magnitude_nonneg]

/-- A double is zero if it stands for zero, whatever its sign. -/
theorem isZero_iff : x.isZero = true ↔ x.toRat = 0 := by
  have hpower : (2 : ℚ) ^ x.exponent ≠ 0 := zpow_ne_zero _ two_ne_zero
  rw [← abs_eq_zero, abs_toRat, magnitude, mul_eq_zero, or_iff_left hpower, Nat.cast_eq_zero, isZero, beq_iff_eq]

section Whole

variable {n : Int} (h : x.toRat = n)
include h

/-- In the fraction of a double that stands for a whole number the division leaves nothing. -/
theorem ratio_of_toRat : x.ratio.1 % x.ratio.2 = 0 ∧ x.ratio.1 / x.ratio.2 = n.natAbs := by
  rw [← magnitude_eq_natCast_iff, ← abs_toRat, h, Nat.cast_natAbs, Int.cast_abs]

/-- Nothing stands behind the point of a double that stands for a whole number. -/
theorem isWhole_of_toRat : x.isWhole = true := beq_iff_eq.2 (ratio_of_toRat h).1

/-- A double that stands for a whole number has its sign, if that is not zero. -/
theorem negative_iff_of_toRat (hne : n ≠ 0) : x.negative = true ↔ n < 0 := by
  have hsign := x.magnitude_nonneg
  unfold toRat at h
  split_ifs at h with hnegative
  · have hle : (n : ℚ) ≤ 0 := by linarith
    have hle' : n ≤ 0 := by exact_mod_cast hle
    exact iff_of_true hnegative (lt_of_le_of_ne hle' hne)
  · have hle : (0 : ℚ) ≤ n := by linarith
    have hle' : 0 ≤ n := by exact_mod_cast hle
    exact iff_of_false hnegative hle'.not_gt

/-- Without digits behind the point nothing is lost of a whole number, and only zero has no sign of its own. -/
theorem wholeText_of_toRat (hne : n ≠ 0) : x.wholeText = Numeral.ofInt n := by
  obtain ⟨hmod, hdiv⟩ := ratio_of_toRat h
  have hrounded : roundToEven x.ratio.1 x.ratio.2 = n.natAbs := by
    rw [roundToEven_of_mod_eq_zero x.ratio_spec.1 hmod, hdiv]
  unfold wholeText Numeral.ofInt
  rw [hrounded]
  simp only [negative_iff_of_toRat h hne]
  split_ifs <;> rfl

end Whole

end Double

namespace Number

variable {x : Number}

/-- The rational number that a number denotes. -/
def toRat : Number → ℚ
  | .integer n => n
  | .double x => x.toRat

/-- The double nearest to a whole number that is not zero is not zero either. -/
theorem not_isZero_of_ofNat? {negative : Bool} {n : Nat} (hn : n ≠ 0) {x : Double}
    (h : Double.ofNat? negative n = some x) : x.isZero = false := by
  have hone : (1 : ℚ) ≤ n := by exact_mod_cast Nat.one_le_iff_ne_zero.2 hn
  have hbound : 1 ≤ x.magnitude :=
    (Double.approximates_of_ofRatio?_eq_some (Nat.pos_of_ne_zero hn) Nat.one_pos h).one_le (by simpa using hone)
  refine Bool.eq_false_iff.2 fun hzero => ?_
  rw [Double.isZero_iff, ← abs_eq_zero, Double.abs_toRat] at hzero
  linarith

/-- A number is zero if it denotes zero, of any form. -/
theorem isZero_iff : x.isZero = true ↔ x.toRat = 0 := by
  cases x with
  | integer n =>
    unfold isZero nearest? toRat
    rw [Int.cast_eq_zero]
    constructor
    · intro h
      by_contra hn
      obtain ⟨x, hx, hzero⟩ := (Option.any_eq_true _ _).1 h
      rw [not_isZero_of_ofNat? (Int.natAbs_ne_zero.2 hn) hx] at hzero
      cases hzero
    · rintro rfl
      rfl
  | double x => exact Double.isZero_iff

end Number

/-! ## Plain numerals -/

namespace Numeral

/-- The plain numerals of a whole number: digits that name its absolute value and begin with zero only if they
are nothing else, and below zero a minus sign in front of them. -/
def IsPlain (n : Int) (t : Text) : Prop :=
  ∃ digits, Json.IsWhole digits ∧ value digits = n.natAbs ∧ t = if n < 0 then '-' :: digits else digits

/-- There is one plain numeral of a whole number. -/
theorem isPlain_iff {n : Int} {t : Text} : IsPlain n t ↔ t = ofInt n := by
  unfold ofInt
  constructor
  · rintro ⟨digits, hwhole, hvalue, rfl⟩
    rw [← hvalue, hwhole.ofNat_value]
  · rintro rfl
    exact ⟨ofNat n.natAbs, Json.isWhole_ofNat _, value_ofNat _, rfl⟩

end Numeral

/-! ## Numbers as text -/

namespace Data

/-- However a whole number is kept, its text is its plain numeral. -/
theorem numberText_of_toRat {x : Number} {n : Int} (h : x.toRat = n) : numberText x = Numeral.ofInt n := by
  cases x with
  | integer m =>
    obtain rfl : m = n := Int.cast_injective h
    exact numberText_integer m
  | double x =>
    have hx : x.toRat = n := h
    rw [numberText_double, if_pos (Double.isWhole_of_toRat hx)]
    by_cases hn : n = 0
    · subst hn
      rw [if_pos (Double.isZero_iff.2 (hx.trans Int.cast_zero))]
      rfl
    · have hzero : ¬ x.isZero = true := by
        rw [Double.isZero_iff, hx, Int.cast_eq_zero]
        exact hn
      rw [if_neg hzero, Double.wholeText_of_toRat hx hn]

/-- Numbers that denote the same whole number have the same text, which is the plain numeral of it, with every
digit and no other sign than one below zero.  They are falsy alike, and that is if the whole number is zero. -/
theorem display_whole_number {x y : Number} {n : Int} (hx : x.toRat = n) (hy : y.toRat = n) :
    display (.number x) = display (.number y) ∧
      (∀ t, Numeral.IsPlain n t ↔ t = display (.number x)) ∧
      (Json.number x).isFalsy = (Json.number y).isFalsy ∧
      ((Json.number x).isFalsy = true ↔ n = 0) := by
  have hdisplay : ∀ z : Number, z.toRat = n → display (.number z) = Numeral.ofInt n := by
    intro z hz
    rw [display, numberText_of_toRat hz]
  have hfalsy : ∀ z : Number, z.toRat = n → ((Json.number z).isFalsy = true ↔ n = 0) := by
    intro z hz
    rw [Json.isFalsy, Number.isZero_iff, hz, Int.cast_eq_zero]
  refine ⟨?_, fun t => ?_, ?_, hfalsy x hx⟩
  · rw [hdisplay x hx, hdisplay y hy]
  · rw [hdisplay x hx, Numeral.isPlain_iff]
  · rw [Bool.eq_iff_iff, hfalsy x hx, hfalsy y hy]

/-- The least whole number of 64 bits, as it is and as a double, and zero as a double with a minus sign. -/
theorem display_whole_number_forms :
    let least : Number := .integer (-9223372036854775808)
    let double : Number := .double ⟨true, 4503599627370496, 11⟩
    let zero : Number := .double (.zero true)
    (least.toRat = (-9223372036854775808 : Int) ∧ double.toRat = (-9223372036854775808 : Int) ∧
        display (.number double) = display (.number least) ∧
        display (.number double) = "-9223372036854775808".toList ∧ (Json.number double).isFalsy = false) ∧
      (zero.toRat = (0 : Int) ∧ (Number.integer 0).toRat = (0 : Int) ∧ display (.number zero) = ['0'] ∧
        (Json.number zero).isFalsy = (Json.number (.integer 0)).isFalsy) := by
  intro least double zero
  have hleast : least.toRat = (-9223372036854775808 : Int) := rfl
  have hdouble : double.toRat = (-9223372036854775808 : Int) := by
    norm_num [double, Number.toRat, Double.toRat, Double.magnitude]
  have hzero : zero.toRat = (0 : Int) := by
    norm_num [zero, Number.toRat, Double.toRat, Double.magnitude, Double.zero]
  have hwholeZero : (Number.integer 0).toRat = (0 : Int) := rfl
  have hplain : Numeral.IsPlain (-9223372036854775808) "-9223372036854775808".toList := by
    refine ⟨"9223372036854775808".toList, ⟨?_, '9', _, rfl, .inl (by decide)⟩, rfl, rfl⟩
    exact List.all_eq_true.1 rfl
  have hnought : Numeral.IsPlain 0 ['0'] := ⟨['0'], ⟨List.all_eq_true.1 rfl, '0', [], rfl, .inr rfl⟩, rfl, rfl⟩
  obtain ⟨hsame, hnumeral, -, hfalsy⟩ := display_whole_number hdouble hleast
  obtain ⟨-, hnumeralZero, hfalsyZero, -⟩ := display_whole_number hzero hwholeZero
  refine ⟨⟨hleast, hdouble, hsame, ((hnumeral _).1 hplain).symm, ?_⟩, hzero, hwholeZero,
    ((hnumeralZero _).1 hnought).symm, hfalsyZero⟩
  rw [← Bool.not_eq_true, hfalsy]
  decide

/-- The largest double is written with all of its digits. -/
example : (display (.number (.double ⟨false, Nat.pow 2 53 - 1, Double.maxExponent⟩))).length = 309 := by
  decide +kernel

end Data
end Infill
