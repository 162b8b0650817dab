import Infill.Proofs.Number.Scaling
import Infill.Proofs.Number.Shortest

/-!
# Decimals of doubles are doubles

The shortest decimal of a double is one that can be scaled to a double again, not always the same one, since
scaling rounds its factors (`exists_scaled_ofDouble`).  It lies within half a gap of the double, which two
roundings take to the midpoint behind the largest double only from the last two doubles; these are checked by
themselves.
-/

set_option autoImplicit false

namespace Infill.Shortest

variable {x : Double} (hx : x.IsNormal) (hpos : 0 < x.mantissa)

/-- An inequality of powers of whole numbers holds of rational ones. -/
theorem twoPower_lt_tenPower {m n : Nat} (h : 2 ^ m < 10 ^ n) : (2 : ℚ) ^ (m : Int) < 10 ^ (n : Int) := by
  exact_mod_cast h

/-- Of a negative power, that of ten is the smaller one. -/
theorem tenPower_neg_le (n : Nat) : (10 : ℚ) ^ (-(n : Int)) ≤ 2 ^ (-(n : Int)) := by
  rw [zpow_neg, zpow_neg]
  gcongr
  exact_mod_cast Nat.pow_le_pow_left (by decide : 2 ≤ 10) n

include hx in
/-- Half a unit above a double is not more than the end of the range. -/
theorem magnitude_add_le_pow : x.magnitude + 1 / 2 * 2 ^ x.exponent ≤ 2 ^ 53 * 2 ^ Double.maxExponent := by
  have hmantissa : (x.mantissa : ℚ) + 1 ≤ 2 ^ 53 := by exact_mod_cast hx.mantissa_lt
  have hunit : (2 : ℚ) ^ x.exponent ≤ 2 ^ Double.maxExponent := zpow_le_zpow_right₀ one_le_two hx.exponent_le
  calc x.magnitude + 1 / 2 * 2 ^ x.exponent = (x.mantissa + 1 / 2) * 2 ^ x.exponent := by
        unfold Double.magnitude
        ring
    _ ≤ 2 ^ 53 * 2 ^ Double.maxExponent := by
        gcongr
        linarith

include hx hpos

/-- The exponents of decimals of doubles. -/
theorem exponent_ofDouble_bounds : -1076 < (ofDouble x).exponent ∧ (ofDouble x).exponent < 309 := by
  obtain ⟨hnormal, -, hlow, hhigh⟩ := ofDouble_spec hx hpos
  have hten : (1 : ℚ) < 10 := by norm_num
  constructor
  · have hmantissa : (1 : ℚ) ≤ x.mantissa := by exact_mod_cast hpos
    have hexponent : -((1075 : Nat) : Int) ≤ x.exponent - 1 := by
      have hminimum := hx.minExponent_le
      unfold Double.minExponent at hminimum
      omega
    have hless : (10 : ℚ) ^ (-((1075 : Nat) : Int)) < 10 ^ ((ofDouble x).exponent + 1) :=
      calc (10 : ℚ) ^ (-((1075 : Nat) : Int)) ≤ 2 ^ (-((1075 : Nat) : Int)) := tenPower_neg_le 1075
        _ ≤ 2 ^ (x.exponent - 1) := zpow_le_zpow_right₀ one_le_two hexponent
        _ = (1 - 1 / 2) * 2 ^ x.exponent := by
            rw [zpow_sub_one₀ two_ne_zero]
            ring
        _ ≤ (x.mantissa - 1 / 2) * 2 ^ x.exponent := by gcongr
        _ = x.magnitude - 1 / 2 * 2 ^ x.exponent := by
            unfold Double.magnitude
            ring
        _ ≤ (ofDouble x).magnitude := hlow
        _ < 10 ^ ((ofDouble x).exponent + 1) := hnormal.magnitude_lt_pow
    have hexponents := (zpow_lt_zpow_iff_right₀ hten).1 hless
    omega
  · have hless : (10 : ℚ) ^ (ofDouble x).exponent < 10 ^ (309 : Int) :=
      calc (10 : ℚ) ^ (ofDouble x).exponent ≤ (ofDouble x).magnitude := hnormal.pow_le_magnitude
        _ ≤ x.magnitude + 1 / 2 * 2 ^ x.exponent := hhigh
        _ ≤ 2 ^ 53 * 2 ^ Double.maxExponent := magnitude_add_le_pow hx
        _ = 2 ^ ((1024 : Nat) : Int) := by
            rw [← zpow_natCast, ← zpow_add₀ two_ne_zero]
            rfl
        _ < 10 ^ ((309 : Nat) : Int) := twoPower_lt_tenPower (by decide +kernel)
    exact (zpow_lt_zpow_iff_right₀ hten).1 hless

/-- Two roundings do not take the decimal of a double to the midpoint behind the largest double, if it is not one
of the last two doubles. -/
theorem magnitude_ofDouble_lt (h : ¬ (x.exponent = Double.maxExponent ∧ Nat.pow 2 53 - 2 ≤ x.mantissa)) :
    (ofDouble x).magnitude * (1 + 1 / 2 ^ 53) ^ 2 < Double.topMidpoint := by
  obtain ⟨-, -, -, hhigh⟩ := ofDouble_spec hx hpos
  have htop : (0 : ℚ) < 2 ^ Double.maxExponent := by positivity
  have hroom : x.magnitude + 1 / 2 * 2 ^ x.exponent ≤ (2 ^ 53 - 5 / 2) * 2 ^ Double.maxExponent := by
    have hsum : x.magnitude + 1 / 2 * 2 ^ x.exponent = (x.mantissa + 1 / 2) * 2 ^ x.exponent := by
      unfold Double.magnitude
      ring
    rw [hsum]
    -- Among the largest doubles the mantissa leaves the room; further down gaps are half as wide at most.
    by_cases hexponent : x.exponent = Double.maxExponent
    · have hmantissa : x.mantissa + 3 ≤ Nat.pow 2 53 := by
        have hless : x.mantissa < Nat.pow 2 53 - 2 := not_le.1 fun hle => h ⟨hexponent, hle⟩
        omega
      have hcast : (x.mantissa : ℚ) + 3 ≤ 2 ^ 53 := by exact_mod_cast hmantissa
      have hless : (x.mantissa : ℚ) + 1 / 2 ≤ 2 ^ 53 - 5 / 2 := by linarith only [hcast]
      rw [hexponent]
      gcongr
    · have hmantissa : (x.mantissa : ℚ) + 1 ≤ 2 ^ 53 := by exact_mod_cast hx.mantissa_lt
      have hhalf : (2 : ℚ) ^ x.exponent ≤ 2 ^ Double.maxExponent * (1 / 2) := by
        have hle : x.exponent ≤ Double.maxExponent - 1 := by
          have hmaximum := hx.exponent_le
          omega
        calc (2 : ℚ) ^ x.exponent ≤ 2 ^ (Double.maxExponent - 1) := zpow_le_zpow_right₀ one_le_two hle
          _ = 2 ^ Double.maxExponent * (1 / 2) := by rw [zpow_sub_one₀ two_ne_zero, one_div]
      have hless : (x.mantissa : ℚ) + 1 / 2 ≤ 2 ^ 53 - 1 / 2 := by linarith only [hmantissa]
      calc ((x.mantissa : ℚ) + 1 / 2) * 2 ^ x.exponent
          ≤ (2 ^ 53 - 1 / 2) * (2 ^ Double.maxExponent * (1 / 2)) :=
            mul_le_mul hless hhalf (by positivity) (by norm_num)
        _ = (2 ^ 53 - 1 / 2) / 2 * 2 ^ Double.maxExponent := by
            generalize (2 : ℚ) ^ Double.maxExponent = top
            ring
        _ ≤ (2 ^ 53 - 5 / 2) * 2 ^ Double.maxExponent := by
            gcongr
            norm_num
  calc (ofDouble x).magnitude * (1 + 1 / 2 ^ 53) ^ 2
      ≤ (2 ^ 53 - 5 / 2) * 2 ^ Double.maxExponent * (1 + 1 / 2 ^ 53) ^ 2 := by
        gcongr
        exact hhigh.trans hroom
    _ = (2 ^ 53 - 5 / 2) * (1 + 1 / 2 ^ 53) ^ 2 * 2 ^ Double.maxExponent := by ring
    _ < (2 ^ 53 - 1 / 2) * 2 ^ Double.maxExponent := by
        gcongr
        norm_num
    _ = Double.topMidpoint := Double.cast_topMidpoint.symm

omit hx hpos in
/-- The last two doubles. -/
theorem exists_scaled_of_top (negative : Bool) (h : x.exponent = Double.maxExponent)
    (hmantissa : x.mantissa = Nat.pow 2 53 - 1 ∨ x.mantissa = Nat.pow 2 53 - 2) :
    ∃ y, Double.scaled? negative (Numeral.value (ofDouble x).digits)
      ((ofDouble x).exponent + 1 - (ofDouble x).digits.length) = some y := by
  obtain ⟨sign, mantissa, exponent⟩ := x
  obtain rfl : exponent = Double.maxExponent := h
  rw [← Option.isSome_iff_exists]
  rcases hmantissa with rfl | rfl <;> cases negative <;> cases sign <;> decide +kernel

/-- The shortest decimal of a double can be scaled to a double again. -/
theorem exists_scaled_ofDouble (negative : Bool) :
    ∃ y, Double.scaled? negative (Numeral.value (ofDouble x).digits)
      ((ofDouble x).exponent + 1 - (ofDouble x).digits.length) = some y := by
  obtain ⟨hnormal, hvalue, -, -⟩ := ofDouble_spec hx hpos
  -- Scaling down never fails, so only decimals with zeros behind their digits come near the midpoint.
  by_cases htop : x.exponent = Double.maxExponent ∧ Nat.pow 2 53 - 2 ≤ x.mantissa
  · have hmantissa := hx.mantissa_lt
    exact exists_scaled_of_top negative htop.1 (by omega)
  · rcases le_or_gt ((ofDouble x).exponent + 1 - (ofDouble x).digits.length : Int) 0 with hpower | hpower
    · have hlimit : Numeral.value (ofDouble x).digits < Nat.pow 2 64 := hvalue.trans_lt (by decide)
      exact Double.exists_scaled_of_nonpos negative hlimit hpower
    · obtain ⟨p, hp⟩ := Int.eq_ofNat_of_zero_le hpower.le
      obtain ⟨c, rest, hdigits, hc⟩ := hnormal.first
      have hpositive : 0 < Numeral.value (ofDouble x).digits := by
        rw [hdigits]
        exact (Nat.pow_pos (by decide)).trans_le
          (Numeral.pow_le_value (hnormal.isDigit c (by simp [hdigits])) hc rest)
      have hreach : p ≤ Double.maxTenPower := by
        have hexponent := (exponent_ofDouble_bounds hx hpos).2
        rw [hdigits, List.length_cons] at hp
        unfold Double.maxTenPower
        omega
      have hless := magnitude_ofDouble_lt hx hpos htop
      rw [Decimal.magnitude, hp, zpow_natCast] at hless
      rw [hp]
      exact Double.exists_scaled_of_pos negative hpositive hreach hless

end Infill.Shortest
