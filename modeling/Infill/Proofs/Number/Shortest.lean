import Mathlib.Algebra.Order.Field.Power
import Mathlib.Data.Rat.Cast.Order
import Mathlib.Tactic.FieldSimp
import Mathlib.Tactic.Linarith
import Mathlib.Tactic.NormNum
import Mathlib.Tactic.Ring
import Infill.Number.Shortest
import Infill.Proofs.Number.Digits
import Infill.Proofs.Number.Rounding

/-!
# The shortest decimal of a double

A decimal names a double if it lies between the midpoints to the two neighbours, and no power of ten that is
tried is so fine that its multiples next to the double have more than seventeen digits.  With seventeen digits
the multiples are closer to each other than the midpoints are, so that one of them names the double
(`exists_candidate?`) and the search for fewer digits ends with one that does.  Whichever it ends with begins with
a digit other than zero, has digits that make a number of 64 bits, and lies within half a gap of the double
(`ofDouble_spec`).
-/

set_option autoImplicit false

namespace Infill.Shortest

/-! ## Decimals -/

/-- The number that a decimal stands for. -/
def Decimal.magnitude (d : Decimal) : ℚ :=
  Numeral.value d.digits * 10 ^ (d.exponent + 1 - d.digits.length)

/-- A decimal that begins with a digit other than zero. -/
structure Decimal.IsNormal (d : Decimal) : Prop where
  isDigit (c : Char) (h : c ∈ d.digits) : c.isDigit = true
  first : ∃ c rest, d.digits = c :: rest ∧ c ≠ '0'

/-- A decimal is at least the power of ten of its first digit. -/
theorem Decimal.IsNormal.pow_le_magnitude {d : Decimal} (h : d.IsNormal) :
    (10 : ℚ) ^ d.exponent ≤ d.magnitude := by
  obtain ⟨c, rest, hdigits, hc⟩ := h.first
  have hvalue : ((10 ^ rest.length : Nat) : ℚ) ≤ Numeral.value d.digits := by
    rw [hdigits]
    exact_mod_cast Numeral.pow_le_value (h.isDigit c (by simp [hdigits])) hc rest
  have hexponent : d.exponent = rest.length + (d.exponent + 1 - d.digits.length) := by
    rw [hdigits, List.length_cons]
    push_cast
    ring
  calc (10 : ℚ) ^ d.exponent = ((10 ^ rest.length : Nat) : ℚ) * 10 ^ (d.exponent + 1 - d.digits.length) := by
        rw [Nat.cast_pow, Nat.cast_ofNat, ← zpow_natCast, ← zpow_add₀ (by norm_num), ← hexponent]
    _ ≤ d.magnitude := by
        unfold magnitude
        gcongr

/-- A decimal is less than the next power of ten. -/
theorem Decimal.IsNormal.magnitude_lt_pow {d : Decimal} (h : d.IsNormal) :
    d.magnitude < (10 : ℚ) ^ (d.exponent + 1) := by
  have hvalue : (Numeral.value d.digits : ℚ) < ((10 ^ d.digits.length : Nat) : ℚ) := by
    exact_mod_cast Numeral.value_lt_pow h.isDigit
  have hexponent : (d.digits.length : Int) + (d.exponent + 1 - d.digits.length) = d.exponent + 1 := by ring
  calc d.magnitude < ((10 ^ d.digits.length : Nat) : ℚ) * 10 ^ (d.exponent + 1 - d.digits.length) := by
        unfold magnitude
        gcongr
    _ = (10 : ℚ) ^ (d.exponent + 1) := by
        rw [Nat.cast_pow, Nat.cast_ofNat, ← zpow_natCast, ← zpow_add₀ (by norm_num), hexponent]

section Candidate

variable (candidate : Nat) (k : Int)

/-- The digits of a candidate are those of its numeral but for the zeros at the end. -/
theorem exists_ofCandidate :
    ∃ n, (ofCandidate candidate k).digits ++ List.replicate n '0' = Numeral.ofNat candidate ∧
      Numeral.value (ofCandidate candidate k).digits * 10 ^ n = candidate ∧
      (ofCandidate candidate k).exponent + 1 - (ofCandidate candidate k).digits.length = n + k := by
  obtain ⟨n, hn⟩ := Numeral.exists_replicate_zero (Numeral.ofNat candidate)
  have hvalue := congrArg Numeral.value hn
  have hlength := congrArg List.length hn
  rw [Numeral.value_append_replicate_zero, Numeral.value_ofNat] at hvalue
  rw [List.length_append, List.length_replicate] at hlength
  refine ⟨n, hn, hvalue, ?_⟩
  unfold ofCandidate
  dsimp only
  omega

/-- The digits of a candidate are worth no more than it. -/
theorem value_ofCandidate_le : Numeral.value (ofCandidate candidate k).digits ≤ candidate := by
  obtain ⟨n, -, hvalue, -⟩ := exists_ofCandidate candidate k
  calc Numeral.value (ofCandidate candidate k).digits
      ≤ Numeral.value (ofCandidate candidate k).digits * 10 ^ n :=
        Nat.le_mul_of_pos_right _ (Nat.pow_pos (by decide))
    _ = candidate := hvalue

/-- A candidate has its size on the grid. -/
theorem magnitude_ofCandidate : (ofCandidate candidate k).magnitude = candidate * 10 ^ k := by
  obtain ⟨n, -, hvalue, hexponent⟩ := exists_ofCandidate candidate k
  have hcast : (Numeral.value (ofCandidate candidate k).digits : ℚ) * 10 ^ n = candidate := by
    exact_mod_cast hvalue
  rw [Decimal.magnitude, hexponent, zpow_add₀ (by norm_num), zpow_natCast, ← mul_assoc, hcast]

/-- The digits of a candidate neither begin nor end with zero. -/
theorem isNormal_ofCandidate (hcandidate : 0 < candidate) : (ofCandidate candidate k).IsNormal := by
  obtain ⟨n, hdigits, hvalue, -⟩ := exists_ofCandidate candidate k
  refine ⟨fun c hc => Numeral.isDigit_of_mem_ofNat (hdigits ▸ List.mem_append_left _ hc), ?_⟩
  obtain ⟨c, more, hnumeral, hc⟩ := Numeral.exists_cons_ofNat hcandidate
  rw [hnumeral] at hdigits
  cases hform : (ofCandidate candidate k).digits with
  | nil =>
    rw [hform, Numeral.value, List.foldl_nil, Nat.zero_mul] at hvalue
    omega
  | cons d rest =>
    rw [hform, List.cons_append] at hdigits
    obtain rfl : d = c := (List.cons.inj hdigits).1
    exact ⟨d, rest, rfl, hc⟩

end Candidate

/-! ## The exponent -/

section Ratio

variable {num den : Nat}

/-- A ratio lies between its power of ten and the next one. -/
theorem floorLog10_spec (hnum : 0 < num) (hden : 0 < den) :
    (10 : ℚ) ^ floorLog10 num den ≤ num / den ∧ (num : ℚ) / den < 10 ^ (floorLog10 num den + 1) := by
  have hnumPos : (0 : ℚ) < num := by exact_mod_cast hnum
  have hdenPos : (0 : ℚ) < den := by exact_mod_cast hden
  -- A numeral tells two powers of ten that its number lies between.
  have hnumeral : ∀ {n : Nat}, 0 < n → (10 : ℚ) ^ ((Numeral.ofNat n).length - 1 : Int) ≤ n ∧
      ((n + 1 : Nat) : ℚ) ≤ 10 ^ ((Numeral.ofNat n).length : Int) := by
    intro n hn
    obtain ⟨k, hk⟩ := Nat.exists_eq_add_one.2 (Numeral.length_ofNat_pos n)
    have hlow : 10 ^ k ≤ n := Numeral.pow_le_of_lt_length_ofNat hn (by omega)
    have hhigh : n + 1 ≤ 10 ^ (k + 1) := hk ▸ Numeral.lt_pow_length_ofNat n
    rw [hk, Nat.cast_add_one, add_sub_cancel_right]
    exact ⟨by exact_mod_cast hlow, by exact_mod_cast hhigh⟩
  unfold floorLog10
  split_ifs with hle
  · obtain ⟨hlow, hhigh⟩ := hnumeral (Nat.div_pos hle hden)
    have hfloor : num / den * den ≤ num := Nat.div_mul_le_self num den
    have hceil : num < (num / den + 1) * den := Nat.lt_mul_of_div_lt (Nat.lt_succ_self _) hden
    rw [sub_add_cancel, le_div_iff₀ hdenPos, div_lt_iff₀ hdenPos]
    constructor
    · calc (10 : ℚ) ^ ((Numeral.ofNat (num / den)).length - 1 : Int) * den
          ≤ (num / den : Nat) * den := by gcongr
        _ ≤ num := by exact_mod_cast hfloor
    · calc (num : ℚ) < ((num / den + 1 : Nat) : ℚ) * den := by exact_mod_cast hceil
        _ ≤ 10 ^ ((Numeral.ofNat (num / den)).length : Int) * den := by gcongr
  · have hless : num ≤ den - 1 := by omega
    obtain ⟨hlow, hhigh⟩ := hnumeral (Nat.div_pos hless hnum)
    have hfloor : (den - 1) / num * num ≤ den - 1 := Nat.div_mul_le_self (den - 1) num
    have hceil : den - 1 < ((den - 1) / num + 1) * num := Nat.lt_mul_of_div_lt (Nat.lt_succ_self _) hnum
    generalize (den - 1) / num = n at hlow hhigh hfloor hceil ⊢
    have hfloor' : (n : ℚ) * num < den := by exact_mod_cast (show n * num < den by omega)
    have hceil' : (den : ℚ) ≤ (n + 1 : Nat) * num := by
      exact_mod_cast (show den ≤ (n + 1) * num by omega)
    have hexponent : -((Numeral.ofNat n).length : Int) + 1 = -((Numeral.ofNat n).length - 1 : Int) := by ring
    rw [le_div_iff₀ hdenPos, div_lt_iff₀ hdenPos, hexponent, zpow_neg, zpow_neg,
      inv_mul_le_iff₀ (by positivity), lt_inv_mul_iff₀ (by positivity)]
    constructor
    · calc (den : ℚ) ≤ (n + 1 : Nat) * num := hceil'
        _ ≤ 10 ^ ((Numeral.ofNat n).length : Int) * num := by gcongr
    · calc (10 : ℚ) ^ ((Numeral.ofNat n).length - 1 : Int) * num ≤ n * num := by gcongr
        _ < den := hfloor'

/-! ## Candidates -/

/-- A grid is a unit. -/
theorem onGrid_eq_inUnits (num den : Nat) (k : Int) : onGrid num den k = Double.inUnits 10 num den k := rfl

/-- Ratios with one denominator stay ones on a grid. -/
theorem onGrid_snd (num num' den : Nat) (k : Int) : (onGrid num den k).2 = (onGrid num' den k).2 := by
  unfold onGrid
  split_ifs <;> rfl

/-- The denominator on a grid is positive. -/
theorem onGrid_snd_pos (num : Nat) (hden : 0 < den) (k : Int) : 0 < (onGrid num den k).2 :=
  (Double.inUnits_spec (by decide) num hden k).1

/-- A ratio is at most a point of the grid if it is so by size. -/
theorem onGrid_le_iff (hden : 0 < den) {k : Int} {n : Nat} :
    (onGrid num den k).1 ≤ n * (onGrid num den k).2 ↔ (num : ℚ) / den ≤ n * 10 ^ k := by
  rw [onGrid_eq_inUnits, Double.inUnits_le_iff (by decide) hden, Nat.cast_ofNat]

/-- A ratio is at least a point of the grid if it is so by size. -/
theorem le_onGrid_iff (hden : 0 < den) {k : Int} {n : Nat} :
    n * (onGrid num den k).2 ≤ (onGrid num den k).1 ↔ n * 10 ^ k ≤ (num : ℚ) / den := by
  rw [onGrid_eq_inUnits, Double.le_inUnits_iff (by decide) hden, Nat.cast_ofNat]

end Ratio

section Candidates

variable {low value high den candidate : Nat} {k : Int} {closed : Bool}

/-- What names a value lies between the midpoints. -/
theorem le_of_names (hden : 0 < den) (h : names low high den k closed candidate) :
    (low : ℚ) / den ≤ candidate * 10 ^ k ∧ candidate * 10 ^ k ≤ (high : ℚ) / den := by
  have hnames : (onGrid low den k).1 ≤ candidate * (onGrid low den k).2 ∧
      candidate * (onGrid low den k).2 ≤ (onGrid high den k).1 := by
    unfold names at h
    dsimp only at h
    split_ifs at h
    · simpa using h
    · simp only [Bool.and_eq_true, decide_eq_true_eq] at h
      exact ⟨h.1.le, h.2.le⟩
  refine ⟨(onGrid_le_iff hden).1 hnames.1, (le_onGrid_iff hden).1 ?_⟩
  rw [onGrid_snd high low]
  exact hnames.2

/-- What lies between the midpoints names a value. -/
theorem names_of_lt (hden : 0 < den) (hlow : (low : ℚ) / den < candidate * 10 ^ k)
    (hhigh : candidate * 10 ^ k < (high : ℚ) / den) : names low high den k closed candidate := by
  have hlow' : (onGrid low den k).1 < candidate * (onGrid low den k).2 := by
    rw [← not_le, le_onGrid_iff hden, not_le]
    exact hlow
  have hhigh' : candidate * (onGrid low den k).2 < (onGrid high den k).1 := by
    rw [onGrid_snd low high, ← not_le, onGrid_le_iff hden, not_le]
    exact hhigh
  unfold names
  dsimp only
  split_ifs
  · simp [hlow'.le, hhigh'.le]
  · simp [hlow', hhigh']

/-- The candidate that is chosen names the value, and is one of the two multiples next to it. -/
theorem names_of_nearest? (h : nearest? low value high den k closed = some candidate) :
    names low high den k closed candidate ∧
      candidate ≤ (onGrid value den k).1 / (onGrid value den k).2 + 1 := by
  unfold nearest? at h
  dsimp only at h
  split_ifs at h <;> obtain rfl := Option.some.inj h <;> simp_all

/-- A candidate is chosen if one of the two multiples next to the value names it. -/
theorem exists_nearest? (h : names low high den k closed ((onGrid value den k).1 / (onGrid value den k).2) ∨
      names low high den k closed ((onGrid value den k).1 / (onGrid value den k).2 + 1)) :
    ∃ candidate, nearest? low value high den k closed = some candidate := by
  unfold nearest?
  dsimp only
  split_ifs <;> simp_all

/-- The multiple below a value. -/
theorem floor_spec (hden : 0 < den) (value : Nat) (k : Int) :
    let below := (onGrid value den k).1 / (onGrid value den k).2
    below * 10 ^ k ≤ (value : ℚ) / den ∧ (value : ℚ) / den < (below + 1 : Nat) * 10 ^ k := by
  intro below
  refine ⟨(le_onGrid_iff hden).1 (Nat.div_mul_le_self _ _), ?_⟩
  rw [← not_le, ← le_onGrid_iff hden, not_le]
  exact Nat.lt_mul_of_div_lt (Nat.lt_succ_self _) (onGrid_snd_pos value hden k)

/-- On a grid that is finer than the midpoints are apart, one of the two multiples next to the value lies
between them. -/
theorem exists_nearest?_of_lt (hden : 0 < den) (hlow : (low : ℚ) / den < value / den)
    (hhigh : (value : ℚ) / den < high / den) (hgrid : (10 : ℚ) ^ k < high / den - low / den) :
    ∃ candidate, nearest? low value high den k closed = some candidate := by
  obtain ⟨hbelow, habove⟩ := floor_spec hden value k
  apply exists_nearest?
  rcases lt_or_ge ((low : ℚ) / den)
    (((onGrid value den k).1 / (onGrid value den k).2 : Nat) * 10 ^ k) with h | h
  · exact .inl (names_of_lt hden h (hbelow.trans_lt hhigh))
  · refine .inr (names_of_lt hden (hlow.trans habove) ?_)
    rw [Nat.cast_add_one, add_one_mul]
    linarith

end Candidates

/-! ## The shortest decimal -/

section Double

variable (x : Double)

/-- Quarters of a gap as whole numbers over the denominator of a double. -/
def scaled (quarters : Nat) : Nat := quarters * (if 0 ≤ x.exponent then Nat.pow 2 x.exponent.toNat else 1)

/-- The denominator of a double, in quarters of a gap. -/
def denominator : Nat := if 0 ≤ x.exponent then 4 else 4 * Nat.pow 2 (-x.exponent).toNat

/-- How far the lower midpoint is away, in quarters of a gap. -/
def gapBelow : Nat := if x.mantissa = Nat.pow 2 52 ∧ x.exponent ≠ Double.minExponent then 1 else 2

/-- The exponent of ten of a double. -/
def topExponent : Int := floorLog10 (scaled x (4 * x.mantissa)) (denominator x)

/-- The candidate for a power of ten. -/
def candidate? (k : Int) : Option Nat :=
  nearest? (scaled x (4 * x.mantissa - gapBelow x)) (scaled x (4 * x.mantissa))
    (scaled x (4 * x.mantissa + 2)) (denominator x) k (x.mantissa % 2 == 0)

/-- The shortest decimal is that of the first grid with a candidate, from coarse to fine. -/
theorem ofDouble_eq :
    ofDouble x =
      match ((List.range 17).map fun (n : Nat) => topExponent x - Int.ofNat n).findSome? fun k =>
          (candidate? x k).map (ofCandidate · k) with
      | some decimal => decimal
      | none => ofCandidate (scaled x (4 * x.mantissa) / denominator x) 0 := rfl

/-- The common denominator is positive. -/
theorem denominator_pos : 0 < denominator x := by
  unfold denominator
  split_ifs
  · decide
  · exact Nat.mul_pos (by decide) (Nat.pow_pos (by decide))

/-- Quarters of a unit are told over the common denominator. -/
theorem scaled_div_denominator (quarters : Nat) :
    (scaled x quarters : ℚ) / denominator x = quarters / 4 * 2 ^ x.exponent := by
  unfold scaled denominator
  split_ifs with h
  · rw [Nat.cast_mul, Double.cast_pow_toNat 2 h]
    push_cast
    ring
  · rw [Nat.cast_mul 4, Double.cast_pow_toNat 2 (by omega), zpow_neg]
    push_cast
    field_simp

/-- So is the size of the double. -/
theorem value_div_denominator : (scaled x (4 * x.mantissa) : ℚ) / denominator x = x.magnitude := by
  rw [scaled_div_denominator, Double.magnitude]
  push_cast
  ring

end Double

section Shortest

variable {x : Double} (hx : x.IsNormal) (hpos : 0 < x.mantissa)

include hpos in
/-- The size of a double lies between its power of ten and the next one. -/
theorem topExponent_spec :
    (10 : ℚ) ^ topExponent x ≤ x.magnitude ∧ x.magnitude < 10 ^ (topExponent x + 1) := by
  have hscaled : 0 < scaled x (4 * x.mantissa) := by
    unfold scaled
    split_ifs
    · exact Nat.mul_pos (by omega) (Nat.pow_pos (by decide))
    · omega
  rw [← value_div_denominator x]
  exact floorLog10_spec hscaled (denominator_pos x)

include hpos in
/-- The lower midpoint is below the double by half of the gap there. -/
theorem low_div_denominator :
    (scaled x (4 * x.mantissa - gapBelow x) : ℚ) / denominator x =
      x.magnitude - gapBelow x / 4 * 2 ^ x.exponent := by
  have hgap : gapBelow x ≤ 4 * x.mantissa := by
    unfold gapBelow
    split_ifs <;> omega
  rw [scaled_div_denominator, Nat.cast_sub hgap, Double.magnitude]
  push_cast
  ring

/-- The upper midpoint is above the double by half a unit. -/
theorem high_div_denominator :
    (scaled x (4 * x.mantissa + 2) : ℚ) / denominator x = x.magnitude + 1 / 2 * 2 ^ x.exponent := by
  rw [scaled_div_denominator, Double.magnitude]
  push_cast
  ring

include hx in
/-- The midpoints are further apart than multiples of the power of ten with seventeen digits. -/
theorem magnitude_div_lt : x.magnitude / 10 ^ 16 < (1 / 2 + gapBelow x / 4) * 2 ^ x.exponent := by
  have hunit : (0 : ℚ) < 2 ^ x.exponent := by positivity
  have hmantissa : (x.mantissa : ℚ) / 10 ^ 16 < 1 / 2 + gapBelow x / 4 := by
    unfold gapBelow
    split_ifs with h
    · rw [h.1]
      norm_num
    · have hless : (x.mantissa : ℚ) < 2 ^ 53 := by exact_mod_cast hx.mantissa_lt
      rw [div_lt_iff₀ (by positivity)]
      refine hless.trans ?_
      norm_num
  calc x.magnitude / 10 ^ 16 = (x.mantissa : ℚ) / 10 ^ 16 * 2 ^ x.exponent := by
        unfold Double.magnitude
        ring
    _ < (1 / 2 + (gapBelow x : ℚ) / 4) * 2 ^ x.exponent := by gcongr

include hx hpos in
/-- Seventeen digits always suffice. -/
theorem exists_candidate? : ∃ candidate, candidate? x (topExponent x - 16) = some candidate := by
  have hunit : (0 : ℚ) < 2 ^ x.exponent := by positivity
  have hgap : (0 : ℚ) < gapBelow x := by
    unfold gapBelow
    split_ifs <;> norm_num
  apply exists_nearest?_of_lt (denominator_pos x)
  · rw [low_div_denominator hpos, value_div_denominator]
    have hbelow : (0 : ℚ) < gapBelow x / 4 * 2 ^ x.exponent := by positivity
    linarith
  · rw [high_div_denominator, value_div_denominator]
    have habove : (0 : ℚ) < 1 / 2 * 2 ^ x.exponent := by positivity
    linarith
  · rw [low_div_denominator hpos, high_div_denominator]
    calc (10 : ℚ) ^ (topExponent x - 16) = 10 ^ topExponent x / 10 ^ 16 := by
          rw [zpow_sub₀ (by norm_num)]
          norm_num
      _ ≤ x.magnitude / 10 ^ 16 := by
          have hle := (topExponent_spec hpos).1
          gcongr
      _ < (1 / 2 + gapBelow x / 4) * 2 ^ x.exponent := magnitude_div_lt hx
      _ = x.magnitude + 1 / 2 * 2 ^ x.exponent - (x.magnitude - gapBelow x / 4 * 2 ^ x.exponent) := by ring

include hpos in
/-- A candidate lies within half a gap of the double, and has at most seventeen digits and a power of ten. -/
theorem candidate?_spec {k : Int} (hk : topExponent x - 16 ≤ k) {candidate : Nat}
    (h : candidate? x k = some candidate) :
    0 < candidate ∧ candidate ≤ 10 ^ 17 ∧
      x.magnitude - 1 / 2 * 2 ^ x.exponent ≤ candidate * 10 ^ k ∧
      candidate * 10 ^ k ≤ x.magnitude + 1 / 2 * 2 ^ x.exponent := by
  obtain ⟨hnames, hnext⟩ := names_of_nearest? h
  obtain ⟨hlow, hhigh⟩ := le_of_names (denominator_pos x) hnames
  rw [low_div_denominator hpos] at hlow
  rw [high_div_denominator] at hhigh
  have hunit : (0 : ℚ) < 2 ^ x.exponent := by positivity
  have hlow' : x.magnitude - 1 / 2 * 2 ^ x.exponent ≤ candidate * 10 ^ k := by
    have hgap : (gapBelow x : ℚ) / 4 ≤ 1 / 2 := by
      unfold gapBelow
      split_ifs <;> norm_num
    calc x.magnitude - 1 / 2 * 2 ^ x.exponent ≤ x.magnitude - gapBelow x / 4 * 2 ^ x.exponent := by gcongr
      _ ≤ candidate * 10 ^ k := hlow
  refine ⟨?_, ?_, hlow', hhigh⟩
  · have hmantissa : (1 : ℚ) ≤ x.mantissa := by exact_mod_cast hpos
    have hcandidate : (0 : ℚ) < candidate * 10 ^ k :=
      calc (0 : ℚ) < (x.mantissa - 1 / 2) * 2 ^ x.exponent := mul_pos (by linarith) hunit
        _ = x.magnitude - 1 / 2 * 2 ^ x.exponent := by
          unfold Double.magnitude
          ring
        _ ≤ candidate * 10 ^ k := hlow'
    exact Nat.pos_of_ne_zero fun hzero => by simp [hzero] at hcandidate
  · obtain ⟨hbelow, -⟩ := floor_spec (denominator_pos x) (scaled x (4 * x.mantissa)) k
    rw [value_div_denominator] at hbelow
    have hless : ((onGrid (scaled x (4 * x.mantissa)) (denominator x) k).1 /
        (onGrid (scaled x (4 * x.mantissa)) (denominator x) k).2 : Nat) * (10 : ℚ) ^ k <
          (10 ^ 17 : Nat) * 10 ^ k :=
      calc _ ≤ x.magnitude := hbelow
        _ < 10 ^ (topExponent x + 1) := (topExponent_spec hpos).2
        _ ≤ 10 ^ (17 + k) := zpow_le_zpow_right₀ (by norm_num) (by omega)
        _ = (10 ^ 17 : Nat) * 10 ^ k := by
          rw [zpow_add₀ (by norm_num)]
          norm_num
    have hfloor := lt_of_mul_lt_mul_right hless (by positivity)
    rw [Nat.cast_lt] at hfloor
    omega

include hx hpos in
/-- The shortest decimal is a candidate within half a gap of the double. -/
theorem exists_ofDouble :
    ∃ candidate k, ofDouble x = ofCandidate candidate k ∧ 0 < candidate ∧ candidate ≤ 10 ^ 17 ∧
      x.magnitude - 1 / 2 * 2 ^ x.exponent ≤ candidate * 10 ^ k ∧
      candidate * 10 ^ k ≤ x.magnitude + 1 / 2 * 2 ^ x.exponent := by
  rw [ofDouble_eq]
  split
  · rename_i decimal hfound
    obtain ⟨k, hk, hcandidate⟩ := List.exists_of_findSome?_eq_some hfound
    obtain ⟨candidate, hsome, rfl⟩ := Option.map_eq_some_iff.1 hcandidate
    obtain ⟨n, hn, rfl⟩ := List.mem_map.1 hk
    have hlt : n < 17 := List.mem_range.1 hn
    refine ⟨candidate, _, rfl, candidate?_spec hpos ?_ hsome⟩
    rw [Int.ofNat_eq_natCast]
    omega
  · rename_i hnone
    obtain ⟨candidate, hsome⟩ := exists_candidate? hx hpos
    have hlast := List.findSome?_eq_none_iff.1 hnone (topExponent x - 16)
      (List.mem_map.2 ⟨16, by decide, rfl⟩)
    rw [hsome] at hlast
    cases hlast

include hx hpos in
/-- What is known of the shortest decimal of a double. -/
theorem ofDouble_spec :
    (ofDouble x).IsNormal ∧ Numeral.value (ofDouble x).digits ≤ 10 ^ 17 ∧
      x.magnitude - 1 / 2 * 2 ^ x.exponent ≤ (ofDouble x).magnitude ∧
      (ofDouble x).magnitude ≤ x.magnitude + 1 / 2 * 2 ^ x.exponent := by
  obtain ⟨candidate, k, hdecimal, hcandidate, hle, hlow, hhigh⟩ := exists_ofDouble hx hpos
  rw [hdecimal, magnitude_ofCandidate]
  exact ⟨isNormal_ofCandidate candidate k hcandidate, (value_ofCandidate_le candidate k).trans hle,
    hlow, hhigh⟩

end Shortest

end Infill.Shortest
