import Infill.Proofs.Number.Rounding

/-!
# Scaling by powers of ten

When a number of 64 bits, scaled by a power of ten with one rounding at a time, is a double
(`exists_scaled_of_nonpos`, `exists_scaled_of_pos`).  Scaling down always gives one, since every step leaves
something no larger.  Scaling up multiplies two rounded factors, each of which may be too large by one part in
`2 ^ 53`, and gives a double if the product stays below the midpoint behind the largest double nevertheless.
-/

set_option autoImplicit false

namespace Infill.Double

/-- The product of two doubles is found and near, if it is not too large. -/
theorem exists_mul? (x y : Double) (h : x.magnitude * y.magnitude < topMidpoint) :
    ∃ z, mul? x y = some z ∧ z.Approximates (x.magnitude * y.magnitude) := by
  obtain ⟨hxden, hx⟩ := x.ratio_spec
  obtain ⟨hyden, hy⟩ := y.ratio_spec
  have hratio : ((x.ratio.1 * y.ratio.1 : Nat) : ℚ) / (x.ratio.2 * y.ratio.2 : Nat) =
      x.magnitude * y.magnitude := by
    rw [← hx, ← hy, div_mul_div_comm]
    push_cast
    rfl
  rw [← hratio] at h ⊢
  exact exists_ofRatio?_eq_some x.negative _ (Nat.mul_pos hxden hyden) h

/-- The ratio of a double that is not zero has a numerator. -/
theorem ratio_fst_pos {y : Double} (hy : 0 < y.magnitude) : 0 < y.ratio.1 := by
  obtain ⟨-, hratio⟩ := y.ratio_spec
  refine Nat.pos_of_ne_zero fun hzero => hy.ne ?_
  rw [← hratio, hzero, Nat.cast_zero, zero_div]

/-- The quotient of two doubles is found and near, if it is not too large. -/
theorem exists_div? (x : Double) {y : Double} (hy : 0 < y.magnitude)
    (h : x.magnitude / y.magnitude < topMidpoint) :
    ∃ z, div? x y = some z ∧ z.Approximates (x.magnitude / y.magnitude) := by
  obtain ⟨hxden, hx⟩ := x.ratio_spec
  obtain ⟨-, hyratio⟩ := y.ratio_spec
  have hratio : ((x.ratio.1 * y.ratio.2 : Nat) : ℚ) / (x.ratio.2 * y.ratio.1 : Nat) =
      x.magnitude / y.magnitude := by
    rw [← hx, ← hyratio, div_div_div_eq]
    push_cast
    rfl
  rw [← hratio] at h ⊢
  exact exists_ofRatio?_eq_some x.negative _ (Nat.mul_pos hxden (ratio_fst_pos hy)) h

/-- The double of a whole number is found and near, if that is not too large. -/
theorem exists_ofNat? (negative : Bool) {n : Nat} (h : (n : ℚ) < topMidpoint) :
    ∃ x, ofNat? negative n = some x ∧ x.Approximates n := by
  have hratio : (n : ℚ) / (1 : Nat) = n := by rw [Nat.cast_one, div_one]
  rw [← hratio] at h ⊢
  exact exists_ofRatio?_eq_some negative n Nat.one_pos h

/-! ## Sizes -/

/-- Powers of two with small exponents are not too large. -/
theorem twoPower_lt_topMidpoint {n : Nat} (h : n < 1024) : (2 : ℚ) ^ n < topMidpoint := by
  have hnat : 2 ^ n < topMidpoint :=
    calc 2 ^ n ≤ 2 ^ 1023 := Nat.pow_le_pow_right (by decide) (by omega)
      _ < topMidpoint := by decide +kernel
  exact_mod_cast hnat

/-- Powers of ten with small exponents are not too large. -/
theorem tenPower_lt_topMidpoint {p : Nat} (h : p ≤ maxTenPower) : (10 : ℚ) ^ p < topMidpoint := by
  have hnat : 10 ^ p < topMidpoint :=
    calc 10 ^ p ≤ 10 ^ maxTenPower := Nat.pow_le_pow_right (by decide) h
      _ < topMidpoint := by decide +kernel
  exact_mod_cast hnat

/-- The double of a power of ten is found and near, and not below one. -/
theorem exists_tenPower {p : Nat} (h : p ≤ maxTenPower) :
    ∃ factor, ofNat? false (Nat.pow 10 p) = some factor ∧ factor.Approximates ((10 : ℚ) ^ p) ∧
      1 ≤ factor.magnitude := by
  have hcast : ((Nat.pow 10 p : Nat) : ℚ) = 10 ^ p := Nat.cast_pow 10 p
  have hless := tenPower_lt_topMidpoint h
  rw [← hcast] at hless ⊢
  obtain ⟨factor, hfactor, happrox⟩ := exists_ofNat? false hless
  refine ⟨factor, hfactor, happrox, happrox.one_le ?_⟩
  rw [hcast]
  exact one_le_pow₀ (by norm_num)

/-- Dividing by a power of ten leaves what is no larger. -/
theorem exists_div?_tenPower {x : Double} {n : Nat} (hn : n < 1024) (hx : x.magnitude ≤ 2 ^ n) {p : Nat}
    (hp : p ≤ maxTenPower) :
    ∃ factor y, ofNat? false (Nat.pow 10 p) = some factor ∧ div? x factor = some y ∧
      y.magnitude ≤ 2 ^ n := by
  obtain ⟨factor, hfactor, -, hone⟩ := exists_tenPower hp
  have hle : x.magnitude / factor.magnitude ≤ 2 ^ n :=
    (div_le_self x.magnitude_nonneg hone).trans hx
  obtain ⟨y, hy, happrox⟩ :=
    exists_div? x (one_pos.trans_le hone) (hle.trans_lt (twoPower_lt_topMidpoint hn))
  exact ⟨factor, y, hfactor, hy, happrox.le_pow n hle⟩

/-! ## Scaling -/

section Scale

variable {steps : Nat} {x factor : Double} {power : Int}

/-- A power within reach is one factor. -/
theorem scaleByTen?_of_le (h : power.natAbs ≤ maxTenPower)
    (hfactor : ofNat? false (Nat.pow 10 power.natAbs) = some factor) :
    scaleByTen? steps x power = if 0 ≤ power then mul? x factor else div? x factor := by
  unfold scaleByTen?
  rw [if_pos h, hfactor]

/-- A power within reach that is not negative is one factor. -/
theorem scaleByTen?_natCast {p : Nat} (h : p ≤ maxTenPower)
    (hfactor : ofNat? false (Nat.pow 10 p) = some factor) : scaleByTen? steps x p = mul? x factor := by
  have hsign : (0 : Int) ≤ p := Int.natCast_nonneg p
  rw [scaleByTen?_of_le (show (p : Int).natAbs ≤ maxTenPower from h) hfactor, if_pos hsign]

/-- A power below reach leaves nothing, or takes one step and then the rest. -/
theorem scaleByTen?_of_lt (h : power < -maxTenPower) (hx : ¬ x.isZero)
    (hfactor : ofNat? false (Nat.pow 10 maxTenPower) = some factor) :
    scaleByTen? (steps + 1) x power = (div? x factor).bind (scaleByTen? steps · (power + maxTenPower)) := by
  rw [scaleByTen?, if_neg (by omega), if_neg hx, if_neg (by omega), hfactor]
  rfl

end Scale

/-- Scaling down gives a double, in however many steps. -/
theorem exists_scaleByTen?_of_neg {x : Double} {n : Nat} (hn : n < 1024) (hx : x.magnitude ≤ 2 ^ n)
    (steps : Nat) {power : Int} (hpower : power < 0) : ∃ y, scaleByTen? steps x power = some y := by
  have hsign : ¬ 0 ≤ power := by omega
  -- The last step is within reach, however many there are.
  have hlast (steps : Nat) {x : Double} {power : Int} (hx : x.magnitude ≤ 2 ^ n) (hsign : ¬ 0 ≤ power)
      (hreach : power.natAbs ≤ maxTenPower) : ∃ y, scaleByTen? steps x power = some y := by
    obtain ⟨factor, y, hfactor, hy, -⟩ := exists_div?_tenPower hn hx hreach
    exact ⟨y, by rw [scaleByTen?_of_le hreach hfactor, if_neg hsign, hy]⟩
  induction steps generalizing x power with
  | zero =>
    by_cases hreach : power.natAbs ≤ maxTenPower
    · exact hlast 0 hx hsign hreach
    · rw [scaleByTen?, if_neg hreach, if_neg hsign]
      split_ifs <;> exact ⟨_, rfl⟩
  | succ steps ih =>
    by_cases hreach : power.natAbs ≤ maxTenPower
    · exact hlast (steps + 1) hx hsign hreach
    · by_cases hzero : x.isZero
      · exact ⟨x, by rw [scaleByTen?, if_neg hreach, if_pos hzero]⟩
      · obtain ⟨factor, y, hfactor, hy, hle⟩ := exists_div?_tenPower hn hx le_rfl
        rw [scaleByTen?_of_lt (by omega) hzero hfactor, hy]
        exact ih hle (by omega) (by omega)

/-- A whole number, scaled by a power of ten. -/
def scaled? (negative : Bool) (n : Nat) (power : Int) : Option Double :=
  (ofNat? negative n).bind (scaleByTen? 4 · power)

/-- Every number of 64 bits is a double when it is scaled by a power of ten that is not positive. -/
theorem exists_scaled_of_nonpos (negative : Bool) {n : Nat} (hn : n < Nat.pow 2 64) {power : Int}
    (hpower : power ≤ 0) : ∃ y, scaled? negative n power = some y := by
  have hle : (n : ℚ) ≤ 2 ^ 64 := by exact_mod_cast hn.le
  obtain ⟨x, hx, happrox⟩ := exists_ofNat? negative (hle.trans_lt (twoPower_lt_topMidpoint (by decide)))
  have hxle := happrox.le_pow 64 hle
  rw [scaled?, hx]
  rcases hpower.lt_or_eq with hneg | rfl
  · exact exists_scaleByTen?_of_neg (by decide) hxle 4 hneg
  · obtain ⟨factor, hfactor, happroxFactor, -⟩ := exists_tenPower (Nat.zero_le maxTenPower)
    have hfactorLe : factor.magnitude ≤ 2 ^ 1 := happroxFactor.le_pow 1 (by norm_num)
    have hproduct : x.magnitude * factor.magnitude ≤ 2 ^ (64 + 1) := by
      rw [pow_add]
      exact mul_le_mul hxle hfactorLe factor.magnitude_nonneg (by positivity)
    obtain ⟨y, hy, -⟩ := exists_mul? x factor (hproduct.trans_lt (twoPower_lt_topMidpoint (by decide)))
    have hscale : scaleByTen? 4 x ((0 : Nat) : Int) = mul? x factor :=
      scaleByTen?_natCast (Nat.zero_le maxTenPower) hfactor
    rw [Nat.cast_zero] at hscale
    exact ⟨y, by rw [Option.bind_some, hscale, hy]⟩

/-- A number that is scaled up is a double if two roundings do not take it to the midpoint behind the
largest one. -/
theorem exists_scaled_of_pos (negative : Bool) {n p : Nat} (hn : 0 < n) (hp : p ≤ maxTenPower)
    (h : (n : ℚ) * 10 ^ p * (1 + 1 / 2 ^ 53) ^ 2 < topMidpoint) :
    ∃ y, scaled? negative n p = some y := by
  have hnone : (1 : ℚ) ≤ n := by exact_mod_cast hn
  have hpone : (1 : ℚ) ≤ 10 ^ p := one_le_pow₀ (by norm_num)
  have hrounded : (1 : ℚ) ≤ (1 + 1 / 2 ^ 53) ^ 2 := by norm_num
  have hless : (n : ℚ) < topMidpoint :=
    calc (n : ℚ) ≤ n * 10 ^ p := le_mul_of_one_le_right (by positivity) hpone
      _ ≤ n * 10 ^ p * (1 + 1 / 2 ^ 53) ^ 2 := le_mul_of_one_le_right (by positivity) hrounded
      _ < topMidpoint := h
  obtain ⟨x, hx, happrox⟩ := exists_ofNat? negative hless
  obtain ⟨factor, hfactor, happroxFactor, -⟩ := exists_tenPower hp
  have hproduct : x.magnitude * factor.magnitude < topMidpoint :=
    calc x.magnitude * factor.magnitude
        ≤ n * (1 + 1 / 2 ^ 53) * (10 ^ p * (1 + 1 / 2 ^ 53)) :=
          mul_le_mul (happrox.le_mul hnone) (happroxFactor.le_mul hpone) factor.magnitude_nonneg (by positivity)
      _ = n * 10 ^ p * (1 + 1 / 2 ^ 53) ^ 2 := by ring
      _ < topMidpoint := h
  obtain ⟨y, hy, -⟩ := exists_mul? x factor hproduct
  exact ⟨y, by rw [scaled?, hx, Option.bind_some, scaleByTen?_natCast hp hfactor, hy]⟩

/-! ## What is scaled is written in one way -/

section Normal

variable {x y z : Double}

/-- A product is normal. -/
theorem isNormal_of_mul? (h : mul? x y = some z) : z.IsNormal :=
  isNormal_of_ofRatio?_eq_some (Nat.mul_pos x.ratio_spec.1 y.ratio_spec.1) h

/-- A quotient is normal. -/
theorem isNormal_of_div? (hy : 0 < y.magnitude) (h : div? x y = some z) : z.IsNormal :=
  isNormal_of_ofRatio?_eq_some (Nat.mul_pos x.ratio_spec.1 (ratio_fst_pos hy)) h

/-- The double of a whole number is normal. -/
theorem isNormal_of_ofNat? {negative : Bool} {n : Nat} (h : ofNat? negative n = some x) : x.IsNormal :=
  isNormal_of_ofRatio?_eq_some Nat.one_pos h

/-- A scaled double is normal. -/
theorem isNormal_of_scaleByTen? (hx : x.IsNormal) {steps : Nat} {power : Int}
    (h : scaleByTen? steps x power = some y) : y.IsNormal := by
  have hlast (steps : Nat) {x : Double} {power : Int} (hreach : power.natAbs ≤ maxTenPower)
      (h : scaleByTen? steps x power = some y) : y.IsNormal := by
    obtain ⟨factor, hfactor, -, hone⟩ := exists_tenPower hreach
    rw [scaleByTen?_of_le hreach hfactor] at h
    split_ifs at h
    · exact isNormal_of_mul? h
    · exact isNormal_of_div? (one_pos.trans_le hone) h
  induction steps generalizing x power with
  | zero =>
    by_cases hreach : power.natAbs ≤ maxTenPower
    · exact hlast 0 hreach h
    · rw [scaleByTen?, if_neg hreach] at h
      split_ifs at h
      · exact Option.some.inj h ▸ hx
      · exact Option.some.inj h ▸ isNormal_zero x.negative
  | succ steps ih =>
    by_cases hreach : power.natAbs ≤ maxTenPower
    · exact hlast (steps + 1) hreach h
    · rw [scaleByTen?, if_neg hreach] at h
      split_ifs at h
      · exact Option.some.inj h ▸ hx
      · obtain ⟨factor, hfactor, hfirst⟩ := Option.bind_eq_some_iff.1 h
        obtain ⟨z, hz, hrest⟩ := Option.bind_eq_some_iff.1 hfirst
        obtain ⟨factor', hfactor', -, hone⟩ := exists_tenPower le_rfl
        obtain rfl : factor' = factor := Option.some.inj (hfactor'.symm.trans hfactor)
        exact ih (isNormal_of_div? (one_pos.trans_le hone) hz) hrest

/-- A scaled whole number is normal. -/
theorem isNormal_of_scaled? {negative : Bool} {n : Nat} {power : Int}
    (h : scaled? negative n power = some y) : y.IsNormal := by
  obtain ⟨x, hx, hscale⟩ := Option.bind_eq_some_iff.1 h
  exact isNormal_of_scaleByTen? (isNormal_of_ofNat? hx) hscale

end Normal

end Infill.Double
