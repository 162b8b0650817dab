import Mathlib.Algebra.Order.Field.Basic
import Mathlib.Algebra.Order.Field.Power
import Mathlib.Data.Rat.Cast.Order
import Mathlib.Tactic.FieldSimp
import Mathlib.Tactic.Linarith
import Mathlib.Tactic.NormNum
import Mathlib.Tactic.Ring
import Infill.Number.Double

/-!
# Rounding to doubles

What rounding does to the size of a ratio, told in rational numbers (`magnitude`).  The double nearest to a
ratio is written in one way (`isNormal_rounded`), exceeds the ratio by half a gap between doubles at most
(`magnitude_rounded_le`), and is not infinite as long as the ratio stays below the midpoint behind the largest
double (`exists_ofRatio?_eq_some`).  What its users need of its size is in one structure (`Approximates`): no
power of two is passed that the ratio does not pass, and from one on the ratio is exceeded by one part in
`2 ^ 53` at most.
-/

set_option autoImplicit false

namespace Infill.Double

variable {num den : Nat}

/-- The absolute value of a double. -/
def magnitude (x : Double) : ℚ := x.mantissa * 2 ^ x.exponent

/-- A size is not negative. -/
theorem magnitude_nonneg (x : Double) : 0 ≤ x.magnitude :=
  mul_nonneg (Nat.cast_nonneg _) (zpow_nonneg (by norm_num) _)

/-- A power with a whole exponent that is not negative. -/
theorem cast_pow_toNat (b : Nat) {e : Int} (h : 0 ≤ e) : ((Nat.pow b e.toNat : Nat) : ℚ) = (b : ℚ) ^ e := by
  obtain ⟨n, rfl⟩ := Int.eq_ofNat_of_zero_le h
  simp

/-- The midpoint behind the largest double. -/
def topMidpoint : Nat := (Nat.pow 2 54 - 1) * Nat.pow 2 (maxExponent - 1).toNat

/-- The end of the range is half a unit above the greatest double. -/
theorem cast_topMidpoint : (topMidpoint : ℚ) = (2 ^ 53 - 1 / 2) * 2 ^ maxExponent := by
  rw [topMidpoint, Nat.cast_mul, cast_pow_toNat 2 (by decide), Nat.cast_ofNat, zpow_sub_one₀ two_ne_zero]
  generalize (2 : ℚ) ^ maxExponent = top
  norm_num
  ring

/-- The ratio of a double is its size. -/
theorem ratio_spec (x : Double) : 0 < x.ratio.2 ∧ (x.ratio.1 : ℚ) / x.ratio.2 = x.magnitude := by
  unfold ratio magnitude
  by_cases h : 0 ≤ x.exponent
  · rw [if_pos h]
    refine ⟨Nat.one_pos, ?_⟩
    rw [Nat.cast_mul, cast_pow_toNat 2 h]
    simp
  · have hexponent : 0 ≤ -x.exponent := by omega
    rw [if_neg h]
    refine ⟨Nat.pow_pos (by decide), ?_⟩
    rw [cast_pow_toNat 2 hexponent]
    simp [div_eq_mul_inv]

/-! ## Units -/

section Units

variable {base : Nat} {e : Int}

/-- A ratio in units of a power of a base. -/
def inUnits (base num den : Nat) (e : Int) : Nat × Nat :=
  if 0 ≤ e then (num, den * Nat.pow base e.toNat) else (num * Nat.pow base (-e).toNat, den)

/-- In units of a power a ratio is divided by the power. -/
theorem inUnits_spec (hbase : 0 < base) (num : Nat) (hden : 0 < den) (e : Int) :
    0 < (inUnits base num den e).2 ∧
      ((inUnits base num den e).1 : ℚ) / (inUnits base num den e).2 = num / den / (base : ℚ) ^ e := by
  unfold inUnits
  by_cases h : 0 ≤ e
  · rw [if_pos h]
    refine ⟨Nat.mul_pos hden (Nat.pow_pos hbase), ?_⟩
    rw [Nat.cast_mul, cast_pow_toNat base h, div_mul_eq_div_div]
  · rw [if_neg h]
    refine ⟨hden, ?_⟩
    rw [Nat.cast_mul, cast_pow_toNat base (by omega), zpow_neg, ← div_eq_mul_inv, div_right_comm]

/-- A ratio is at most a number of units if it is so by size. -/
theorem inUnits_le_iff (hbase : 0 < base) (hden : 0 < den) {n : Nat} :
    (inUnits base num den e).1 ≤ n * (inUnits base num den e).2 ↔ (num : ℚ) / den ≤ n * (base : ℚ) ^ e := by
  obtain ⟨hpos, hunits⟩ := inUnits_spec hbase num hden e
  rw [← div_le_iff₀ (by positivity), ← hunits, div_le_iff₀ (by exact_mod_cast hpos)]
  norm_cast

/-- A ratio is at least a number of units if it is so by size. -/
theorem le_inUnits_iff (hbase : 0 < base) (hden : 0 < den) {n : Nat} :
    n * (inUnits base num den e).2 ≤ (inUnits base num den e).1 ↔ n * (base : ℚ) ^ e ≤ (num : ℚ) / den := by
  obtain ⟨hpos, hunits⟩ := inUnits_spec hbase num hden e
  rw [← le_div_iff₀ (by positivity), ← hunits, le_div_iff₀ (by exact_mod_cast hpos)]
  norm_cast

end Units

/-! ## Rounding to whole numbers -/

/-- Rounding does not go below the whole part. -/
theorem div_le_roundToEven (num den : Nat) : num / den ≤ roundToEven num den := by
  unfold roundToEven
  dsimp only
  split_ifs <;> omega

/-- Nothing is rounded where the division leaves nothing. -/
theorem roundToEven_of_mod_eq_zero (hden : 0 < den) (h : num % den = 0) : roundToEven num den = num / den := by
  unfold roundToEven
  dsimp only
  rw [h, if_pos hden]

/-- Rounding adds half at most. -/
theorem roundToEven_le (hden : 0 < den) : (roundToEven num den : ℚ) ≤ num / den + 1 / 2 := by
  have hnat : 2 * (den * roundToEven num den) ≤ 2 * num + den := by
    have hsplit := Nat.div_add_mod num den
    unfold roundToEven
    dsimp only
    split_ifs with hless hmore heven
    · omega
    · rw [Nat.mul_add, Nat.mul_one]
      omega
    · omega
    · rw [Nat.mul_add, Nat.mul_one]
      omega
  have hpos : (0 : ℚ) < den := by exact_mod_cast hden
  have hrat : 2 * ((den : ℚ) * roundToEven num den) ≤ 2 * num + den := by exact_mod_cast hnat
  rw [div_add_div _ _ hpos.ne' two_ne_zero, le_div_iff₀ (by positivity)]
  linarith

/-- Rounding does not go beyond a whole number. -/
theorem roundToEven_le_of_le {n : Nat} (hden : 0 < den) (h : num ≤ n * den) : roundToEven num den ≤ n := by
  have hdiv : num / den ≤ n := Nat.div_le_of_le_mul (by rwa [mul_comm] at h)
  have hsplit := Nat.div_add_mod num den
  unfold roundToEven
  dsimp only
  -- The quotient is only exceeded if something is left over, and then it lies below the bound.
  have hless : num % den ≠ 0 → num / den < n := by
    intro hmod
    refine lt_of_le_of_ne hdiv fun heq => hmod ?_
    rw [heq, mul_comm] at hsplit
    omega
  split_ifs with h₁ h₂ h₃
  · exact hdiv
  · exact hless (by omega)
  · exact hdiv
  · exact hless (by omega)

/-! ## The exponent -/

/-- Whether a power of two is reached is asked of whole numbers. -/
theorem reached_iff (hden : 0 < den) (k : Int) :
    (if 0 ≤ k then decide (den * Nat.pow 2 k.toNat ≤ num)
      else decide (den ≤ num * Nat.pow 2 (-k).toNat)) = true ↔ (2 : ℚ) ^ k ≤ num / den := by
  have hpos : (0 : ℚ) < den := by exact_mod_cast hden
  rw [le_div_iff₀ hpos]
  by_cases hk : 0 ≤ k
  · rw [if_pos hk, decide_eq_true_iff, ← Nat.cast_le (α := ℚ), Nat.cast_mul, cast_pow_toNat 2 hk, mul_comm]
    rfl
  · have hpower : (0 : ℚ) < 2 ^ k := by positivity
    rw [if_neg hk, decide_eq_true_iff, ← Nat.cast_le (α := ℚ), Nat.cast_mul, cast_pow_toNat 2 (by omega),
      zpow_neg, ← div_eq_mul_inv, le_div_iff₀ (by exact_mod_cast hpower), mul_comm]
    rfl

/-- The exponent of the largest power of two that is not larger than a ratio. -/
theorem floorLog2_spec (hnum : 0 < num) (hden : 0 < den) :
    (2 : ℚ) ^ floorLog2 num den ≤ num / den ∧ (num : ℚ) / den < 2 ^ (floorLog2 num den + 1) := by
  have hpos : (0 : ℚ) < den := by exact_mod_cast hden
  have hpow : ∀ n : Nat, n ≠ 0 → (2 : ℚ) ^ (n.log2 : Int) ≤ n ∧ (n : ℚ) < 2 ^ ((n.log2 : Int) + 1) := by
    intro n hn
    have hlow : 2 ^ n.log2 ≤ n := Nat.log2_self_le hn
    have hhigh : n < 2 ^ (n.log2 + 1) := Nat.lt_log2_self
    exact ⟨by exact_mod_cast hlow, by exact_mod_cast hhigh⟩
  obtain ⟨hnumLow, hnumHigh⟩ := hpow num hnum.ne'
  obtain ⟨hdenLow, hdenHigh⟩ := hpow den hden.ne'
  -- Both numbers lie between two powers of two each, so the ratio lies between two that are a factor of four
  -- apart, and one comparison decides between the two factors of two.
  have hlow : (2 : ℚ) ^ ((num.log2 : Int) - den.log2 - 1) ≤ num / den := by
    rw [le_div_iff₀ hpos]
    calc (2 : ℚ) ^ ((num.log2 : Int) - den.log2 - 1) * den
        ≤ 2 ^ ((num.log2 : Int) - den.log2 - 1) * 2 ^ ((den.log2 : Int) + 1) := by gcongr
      _ = 2 ^ (num.log2 : Int) := by
        rw [← zpow_add₀ two_ne_zero]
        congr 1
        omega
      _ ≤ num := hnumLow
  have hhigh : (num : ℚ) / den < 2 ^ ((num.log2 : Int) - den.log2 + 1) := by
    rw [div_lt_iff₀ hpos]
    calc (num : ℚ) < 2 ^ ((num.log2 : Int) + 1) := hnumHigh
      _ = 2 ^ ((num.log2 : Int) - den.log2 + 1) * 2 ^ (den.log2 : Int) := by
        rw [← zpow_add₀ two_ne_zero]
        congr 1
        omega
      _ ≤ 2 ^ ((num.log2 : Int) - den.log2 + 1) * den := by gcongr
  have hreached := @reached_iff num den hden ((num.log2 : Int) - den.log2)
  unfold floorLog2
  dsimp only
  by_cases h : (2 : ℚ) ^ ((num.log2 : Int) - den.log2) ≤ num / den
  · rw [if_pos (hreached.2 h)]
    exact ⟨h, hhigh⟩
  · rw [if_neg (mt hreached.1 h), sub_add_cancel]
    exact ⟨hlow, not_le.1 h⟩

/-! ## The nearest double -/

/-- The exponent of the gaps between the doubles around a ratio. -/
def gapExponent (num den : Nat) : Int := max minExponent (floorLog2 num den - 52)

/-- The nearest multiple of the gap. -/
def roundedMantissa (num den : Nat) : Nat :=
  roundToEven (inUnits 2 num den (gapExponent num den)).1 (inUnits 2 num den (gapExponent num den)).2

/-- The nearest double, as if exponents had no upper bound. -/
def rounded (negative : Bool) (num den : Nat) : Double :=
  if roundedMantissa num den = Nat.pow 2 53 then ⟨negative, Nat.pow 2 52, gapExponent num den + 1⟩
  else ⟨negative, roundedMantissa num den, gapExponent num den⟩

/-- The double nearest to a ratio is the ratio rounded, if that is not too large. -/
theorem ofRatio?_eq (negative : Bool) (hnum : 0 < num) :
    ofRatio? negative num den =
      if (rounded negative num den).exponent ≤ maxExponent then some (rounded negative num den) else none := by
  have hmantissa : roundedMantissa num den =
      if 0 ≤ gapExponent num den then roundToEven num (den * Nat.pow 2 (gapExponent num den).toNat)
      else roundToEven (num * Nat.pow 2 (-gapExponent num den).toNat) den := by
    unfold roundedMantissa inUnits
    split <;> rfl
  rw [ofRatio?, if_neg hnum.ne', rounded, hmantissa]
  rfl

/-- A ratio rounded is its mantissa in units of the gap. -/
theorem magnitude_rounded (negative : Bool) (num den : Nat) :
    (rounded negative num den).magnitude = roundedMantissa num den * 2 ^ gapExponent num den := by
  unfold rounded magnitude
  split_ifs with h
  · rw [h, zpow_add₀ two_ne_zero]
    norm_num
    ring
  · rfl

/-- A multiple of the gap that is not below a ratio is not passed. -/
theorem roundedMantissa_le (hden : 0 < den) {n : Nat} (h : (num : ℚ) / den ≤ n * 2 ^ gapExponent num den) :
    roundedMantissa num den ≤ n :=
  roundToEven_le_of_le (inUnits_spec two_pos num hden _).1 ((inUnits_le_iff two_pos hden).2 h)

/-- A multiple of the gap that is not above a ratio is reached. -/
theorem le_roundedMantissa (hden : 0 < den) {n : Nat} (h : n * 2 ^ gapExponent num den ≤ (num : ℚ) / den) :
    n ≤ roundedMantissa num den := by
  have hunits := (Nat.le_div_iff_mul_le (inUnits_spec two_pos num hden _).1).2 ((le_inUnits_iff two_pos hden).2 h)
  exact hunits.trans (div_le_roundToEven _ _)

/-- Rounding to a multiple of the gap goes up by half a unit at most. -/
theorem roundedMantissa_le_add_half (num : Nat) (hden : 0 < den) :
    (roundedMantissa num den : ℚ) ≤ num / den / 2 ^ gapExponent num den + 1 / 2 := by
  obtain ⟨hpos, hunits⟩ := inUnits_spec two_pos num hden (gapExponent num den)
  rw [Nat.cast_ofNat] at hunits
  exact hunits ▸ roundToEven_le hpos

section Rounded

variable (hnum : 0 < num) (hden : 0 < den)
include hnum hden

/-- Rounding goes up by half a gap at most. -/
theorem magnitude_rounded_le (negative : Bool) :
    (rounded negative num den).magnitude ≤ num / den + 2 ^ gapExponent num den / 2 := by
  have hround := roundedMantissa_le_add_half num hden
  have hgap : (0 : ℚ) < 2 ^ gapExponent num den := by positivity
  calc (rounded negative num den).magnitude
      = roundedMantissa num den * 2 ^ gapExponent num den := magnitude_rounded negative num den
    _ ≤ (num / den / 2 ^ gapExponent num den + 1 / 2) * 2 ^ gapExponent num den := by gcongr
    _ = num / den + 2 ^ gapExponent num den / 2 := by field_simp

/-- The mantissa has one bit more at most, where rounding carries. -/
theorem roundedMantissa_le_pow : roundedMantissa num den ≤ Nat.pow 2 53 := by
  apply roundedMantissa_le hden
  have hgap : floorLog2 num den + 1 ≤ 53 + gapExponent num den := by
    unfold gapExponent
    omega
  calc (num : ℚ) / den ≤ 2 ^ (floorLog2 num den + 1) := (floorLog2_spec hnum hden).2.le
    _ ≤ 2 ^ (53 + gapExponent num den) := zpow_le_zpow_right₀ one_le_two hgap
    _ = (Nat.pow 2 53 : Nat) * 2 ^ gapExponent num den := by
      rw [zpow_add₀ two_ne_zero]
      norm_num

/-- Beyond the least exponent the mantissa is full. -/
theorem pow_le_roundedMantissa (h : gapExponent num den ≠ minExponent) :
    Nat.pow 2 52 ≤ roundedMantissa num den := by
  have hgap : 52 + gapExponent num den = floorLog2 num den := by
    unfold gapExponent at h ⊢
    omega
  apply le_roundedMantissa hden
  calc ((Nat.pow 2 52 : Nat) : ℚ) * 2 ^ gapExponent num den
      = 2 ^ (52 + gapExponent num den) := by
        rw [zpow_add₀ two_ne_zero]
        norm_num
    _ = 2 ^ floorLog2 num den := by rw [hgap]
    _ ≤ num / den := (floorLog2_spec hnum hden).1

/-- A ratio rounded is normal, if it is not too large. -/
theorem isNormal_rounded (negative : Bool) (h : (rounded negative num den).exponent ≤ maxExponent) :
    (rounded negative num den).IsNormal := by
  have hlow : minExponent ≤ gapExponent num den := le_max_left _ _
  have hmantissa := roundedMantissa_le_pow hnum hden
  have hfull := pow_le_roundedMantissa hnum hden
  unfold rounded at h ⊢
  split_ifs at h ⊢ with hcarry
  · have hless : Nat.pow 2 52 < Nat.pow 2 53 := by decide
    exact ⟨hless, hlow.trans (by simp), h, .inr le_rfl⟩
  · refine ⟨lt_of_le_of_ne hmantissa hcarry, hlow, h, ?_⟩
    by_cases hgap : gapExponent num den = minExponent
    · exact .inl hgap
    · exact .inr (hfull hgap)

/-- From one on, gaps are as wide as the ratio asks for. -/
theorem gapExponent_of_one_le (h : 1 ≤ (num : ℚ) / den) :
    0 ≤ floorLog2 num den ∧ gapExponent num den = floorLog2 num den - 52 := by
  have hless : (2 : ℚ) ^ (0 : Int) < 2 ^ (floorLog2 num den + 1) :=
    lt_of_le_of_lt (by simpa using h) (floorLog2_spec hnum hden).2
  have hexponent : 0 < floorLog2 num den + 1 := (zpow_lt_zpow_iff_right₀ one_lt_two).1 hless
  refine ⟨by omega, ?_⟩
  unfold gapExponent minExponent
  omega

/-- Below the midpoint behind the largest double, the nearest double is not infinite. -/
theorem exponent_rounded_le (negative : Bool) (h : (num : ℚ) / den < topMidpoint) :
    (rounded negative num den).exponent ≤ maxExponent := by
  have hratio : (num : ℚ) / den < 2 ^ (1024 : Int) := by
    have hpow : (2 : ℚ) ^ (1024 : Int) = 2 ^ 53 * 2 ^ maxExponent := by
      rw [← zpow_natCast, ← zpow_add₀ two_ne_zero]
      rfl
    rw [hpow]
    refine h.trans ?_
    rw [cast_topMidpoint]
    gcongr
    norm_num
  have hlog : floorLog2 num den < 1024 :=
    (zpow_lt_zpow_iff_right₀ one_lt_two).1 ((floorLog2_spec hnum hden).1.trans_lt hratio)
  have hgap : gapExponent num den ≤ maxExponent := by
    unfold gapExponent minExponent maxExponent
    omega
  unfold rounded
  split_ifs with hcarry
  · -- The mantissa of the largest double is full, so only a ratio from the midpoint on makes it overflow.
    refine Int.add_one_le_of_lt (lt_of_le_of_ne hgap fun htop => ?_)
    have hround := roundedMantissa_le_add_half num hden
    rw [hcarry, htop, ← sub_le_iff_le_add, le_div_iff₀ (by positivity)] at hround
    refine absurd h (not_lt.2 (le_trans (le_of_eq ?_) hround))
    rw [cast_topMidpoint]
    norm_num
  · exact hgap

end Rounded

/-- What is known of the size of a double that is nearest to a ratio. -/
structure Approximates (x : Double) (q : ℚ) : Prop where
  le_pow (n : Nat) (h : q ≤ 2 ^ n) : x.magnitude ≤ 2 ^ n
  one_le (h : 1 ≤ q) : 1 ≤ x.magnitude
  le_mul (h : 1 ≤ q) : x.magnitude ≤ q * (1 + 1 / 2 ^ 53)

/-- Zero has no size. -/
theorem magnitude_zero (negative : Bool) : (zero negative).magnitude = 0 := by
  simp [zero, magnitude]

/-- A ratio rounded is as near to it as doubles come. -/
theorem approximates_rounded (negative : Bool) (hnum : 0 < num) (hden : 0 < den) :
    (rounded negative num den).Approximates (num / den) := by
  obtain ⟨hlow, hhigh⟩ := floorLog2_spec hnum hden
  constructor
  · intro n h
    have hlog : floorLog2 num den ≤ n :=
      (zpow_le_zpow_iff_right₀ (one_lt_two (α := ℚ))).1 (hlow.trans (by simpa using h))
    have hgap : 0 ≤ n - gapExponent num den := by
      unfold gapExponent minExponent
      omega
    have hpow : ((Nat.pow 2 (n - gapExponent num den).toNat : Nat) : ℚ) * 2 ^ gapExponent num den = 2 ^ n := by
      rw [cast_pow_toNat 2 hgap, Nat.cast_ofNat, ← zpow_add₀ two_ne_zero, sub_add_cancel, zpow_natCast]
    rw [magnitude_rounded, ← hpow]
    gcongr
    exact roundedMantissa_le hden (hpow ▸ h)
  · intro h
    obtain ⟨hlog, hgap⟩ := gapExponent_of_one_le hnum hden h
    have hfull := pow_le_roundedMantissa hnum hden (by unfold minExponent; omega)
    have hexponent : 0 ≤ 52 + gapExponent num den := by omega
    calc (1 : ℚ) ≤ 2 ^ (52 + gapExponent num den) := one_le_zpow₀ one_le_two hexponent
      _ = (Nat.pow 2 52 : Nat) * 2 ^ gapExponent num den := by
        rw [zpow_add₀ two_ne_zero]
        norm_num
      _ ≤ roundedMantissa num den * 2 ^ gapExponent num den := by gcongr
      _ = (rounded negative num den).magnitude := (magnitude_rounded negative num den).symm
  · intro h
    obtain ⟨-, hgap⟩ := gapExponent_of_one_le hnum hden h
    have hhalf : (2 : ℚ) ^ gapExponent num den / 2 = 2 ^ floorLog2 num den * (1 / 2 ^ 53) := by
      rw [hgap, zpow_sub₀ two_ne_zero]
      norm_num
      ring
    calc (rounded negative num den).magnitude
        ≤ num / den + 2 ^ gapExponent num den / 2 := magnitude_rounded_le hnum hden negative
      _ = num / den + 2 ^ floorLog2 num den * (1 / 2 ^ 53) := by rw [hhalf]
      _ ≤ num / den + num / den * (1 / 2 ^ 53) := by gcongr
      _ = num / den * (1 + 1 / 2 ^ 53) := by ring

/-- A nearest double approximates its ratio. -/
theorem approximates_of_ofRatio?_eq_some {negative : Bool} (hnum : 0 < num) (hden : 0 < den) {x : Double}
    (h : ofRatio? negative num den = some x) : x.Approximates (num / den) := by
  rw [ofRatio?_eq negative hnum] at h
  split_ifs at h
  obtain rfl := Option.some.inj h
  exact approximates_rounded negative hnum hden

/-- Below the midpoint behind the largest double there is a nearest double. -/
theorem exists_ofRatio?_eq_some (negative : Bool) (num : Nat) (hden : 0 < den)
    (h : (num : ℚ) / den < topMidpoint) :
    ∃ x, ofRatio? negative num den = some x ∧ x.Approximates (num / den) := by
  rcases Nat.eq_zero_or_pos num with rfl | hnum
  · refine ⟨zero negative, rfl, fun n _ => ?_, fun hone => ?_, fun hone => ?_⟩
    · rw [magnitude_zero]
      positivity
    · norm_num at hone
    · norm_num at hone
  · exact ⟨rounded negative num den,
      by rw [ofRatio?_eq negative hnum, if_pos (exponent_rounded_le hnum hden negative h)],
      approximates_rounded negative hnum hden⟩

/-- Zero is normal. -/
theorem isNormal_zero (negative : Bool) : (zero negative).IsNormal :=
  ⟨by simp [zero], le_rfl, by simp [zero, minExponent, maxExponent], .inl rfl⟩

/-- What is rounded to is written in one way. -/
theorem isNormal_of_ofRatio?_eq_some {negative : Bool} (hden : 0 < den) {x : Double}
    (h : ofRatio? negative num den = some x) : x.IsNormal := by
  rcases Nat.eq_zero_or_pos num with rfl | hnum
  · obtain rfl : zero negative = x := by simpa [ofRatio?] using h
    exact isNormal_zero negative
  · rw [ofRatio?_eq negative hnum] at h
    split_ifs at h with hexponent
    obtain rfl : rounded negative num den = x := Option.some.inj h
    exact isNormal_rounded hnum hden negative hexponent

end Infill.Double
