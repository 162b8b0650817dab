import Mathlib.Data.List.Induction
import Mathlib.Tactic.Ring
import Infill.Number.Numeral

/-!
# Runs of digits

The number that a run of digits names, and the length of the run: a run that does not begin with zero is exactly
as long as its number asks for (`value_lt_pow`, `pow_le_value`).  Zeros behind a run multiply its number by
powers of ten, so that a numeral without the zeros at its end still names the digits of the number
(`exists_replicate_zero`, `value_append_replicate_zero`).
-/

set_option autoImplicit false

namespace Infill.Numeral

/-! ## Numerals -/

/-- A numeral consists of digits. -/
theorem isDigit_of_mem_ofNat {n : Nat} {c : Char} (h : c ∈ ofNat n) : c.isDigit = true :=
  Nat.isDigit_of_mem_toDigits (by decide) (by decide) h

/-- A numeral has a digit. -/
theorem length_ofNat_pos (n : Nat) : 0 < (ofNat n).length := Nat.length_toDigits_pos

/-- A number is less than the power of ten with its count of digits. -/
theorem lt_pow_length_ofNat (n : Nat) : n < 10 ^ (ofNat n).length :=
  (Nat.length_toDigits_le_iff (by decide) (length_ofNat_pos n)).1 (Nat.le_refl _)

/-- A number is not less than the power of ten with fewer digits. -/
theorem pow_le_of_lt_length_ofNat {n k : Nat} (hn : 0 < n) (h : k < (ofNat n).length) : 10 ^ k ≤ n := by
  rcases Nat.eq_zero_or_pos k with rfl | hk
  · exact hn
  · refine Nat.le_of_not_lt fun hless => ?_
    have hlength : (ofNat n).length ≤ k := (Nat.length_toDigits_le_iff (by decide) hk).2 hless
    omega

/-- One more digit behind a numeral. -/
theorem ofNat_mul_add {n d : Nat} (hn : 0 < n) (hd : d < 10) :
    ofNat (10 * n + d) = ofNat n ++ [d.digitChar] := by
  have hdiv : (10 * n + d) / 10 = n := by omega
  have hmod : (10 * n + d) % 10 = d := by omega
  rw [ofNat, Nat.toDigits_eq_if (by decide), if_neg (by omega), hdiv, hmod, ofNat]

/-! ## Runs -/

/-- A digit is worth less than ten, and only a zero is worth nothing. -/
theorem toNat_sub_of_isDigit {d : Char} (h : d.isDigit = true) :
    d.toNat - '0'.toNat < 10 ∧ (d.toNat - '0'.toNat = 0 → d = '0') := by
  have hrange := Char.isDigit_iff_toNat.1 h
  have hzero : '0'.toNat = 48 := rfl
  have hnine : '9'.toNat = 57 := rfl
  refine ⟨by omega, fun hd => Char.toNat_inj.1 ?_⟩
  omega

/-- A digit is the one that its worth is written with. -/
theorem digitChar_toNat_sub {d : Char} (h : d.isDigit = true) :
    Nat.digitChar (d.toNat - '0'.toNat) = d := by
  have hrange := Char.isDigit_iff_toNat.1 h
  have hzero : '0'.toNat = 48 := rfl
  apply Char.toNat_inj.1
  rw [Nat.toNat_digitChar_of_lt_ten (toNat_sub_of_isDigit h).1]
  omega

/-- Digits behind others shift the value of the others. -/
theorem value_append (digits more : Text) :
    value (digits ++ more) = value digits * 10 ^ more.length + value more := by
  induction more using List.reverseRecOn with
  | nil => simp [value]
  | append_singleton more d ih =>
    rw [← List.append_assoc, value_append_singleton, value_append_singleton, ih, List.length_append,
      List.length_singleton, pow_succ]
    ring

/-- More digits make no smaller number. -/
theorem value_le_value_append (digits more : Text) : value digits ≤ value (digits ++ more) := by
  rw [value_append]
  exact Nat.le_add_right_of_le (Nat.le_mul_of_pos_right _ (Nat.pow_pos (by decide)))

/-- Zeros have no value. -/
theorem value_replicate_zero (n : Nat) : value (List.replicate n '0') = 0 := by
  induction n with
  | zero => rfl
  | succ n ih =>
    rw [List.replicate_succ', value_append_singleton, ih]
    rfl

/-- Zeros behind a run. -/
theorem value_append_replicate_zero (digits : Text) (n : Nat) :
    value (digits ++ List.replicate n '0') = value digits * 10 ^ n := by
  rw [value_append, value_replicate_zero, List.length_replicate, Nat.add_zero]

/-- Zeros in front of a run. -/
theorem value_replicate_zero_append (n : Nat) (digits : Text) :
    value (List.replicate n '0' ++ digits) = value digits := by
  rw [value_append, value_replicate_zero, Nat.zero_mul, Nat.zero_add]

/-- Digits are worth less than the power of ten with their count. -/
theorem value_lt_pow {digits : Text} (h : ∀ c ∈ digits, c.isDigit = true) :
    value digits < 10 ^ digits.length := by
  induction digits using List.reverseRecOn with
  | nil => decide
  | append_singleton digits d ih =>
    have hfront := ih fun c hc => h c (List.mem_append_left _ hc)
    have hlast := (toNat_sub_of_isDigit (h d (by simp))).1
    rw [value_append_singleton, List.length_append, List.length_singleton, pow_succ]
    omega

/-- Digits that do not begin with zero are worth at least the power of ten with one digit less. -/
theorem pow_le_value {d : Char} (hd : d.isDigit = true) (hzero : d ≠ '0') (digits : Text) :
    10 ^ digits.length ≤ value (d :: digits) := by
  have hworth : 1 ≤ d.toNat - '0'.toNat :=
    Nat.one_le_iff_ne_zero.2 fun h => hzero ((toNat_sub_of_isDigit hd).2 h)
  have hfirst : value [d] = d.toNat - '0'.toNat := by simp [value]
  calc 10 ^ digits.length ≤ value [d] * 10 ^ digits.length :=
        Nat.le_mul_of_pos_left _ (hfirst ▸ hworth)
    _ ≤ value [d] * 10 ^ digits.length + value digits := Nat.le_add_right _ _
    _ = value (d :: digits) := (value_append [d] digits).symm

/-- A numeral begins with zero only if it is zero: behind one, the other digits would be too few. -/
theorem exists_cons_ofNat {n : Nat} (hn : 0 < n) : ∃ c more, ofNat n = c :: more ∧ c ≠ '0' := by
  cases hform : ofNat n with
  | nil =>
    have hlength := length_ofNat_pos n
    rw [hform] at hlength
    exact absurd hlength (Nat.lt_irrefl 0)
  | cons c more =>
    refine ⟨c, more, rfl, ?_⟩
    rintro rfl
    have hvalue : n = value more := by
      rw [← value_replicate_zero_append 1, ← value_ofNat n, hform]
      rfl
    have hless : value more < 10 ^ more.length :=
      value_lt_pow fun c hc => isDigit_of_mem_ofNat (hform ▸ List.mem_cons_of_mem '0' hc)
    have hle : 10 ^ more.length ≤ n := by
      apply pow_le_of_lt_length_ofNat hn
      rw [hform, List.length_cons]
      exact Nat.lt_succ_self _
    omega

/-- The zeros at the end of a run can be put back. -/
theorem exists_replicate_zero (digits : Text) :
    ∃ n, (digits.reverse.dropWhile (· == '0')).reverse ++ List.replicate n '0' = digits := by
  induction digits using List.reverseRecOn with
  | nil => exact ⟨0, rfl⟩
  | append_singleton digits d ih =>
    rw [List.reverse_append, List.reverse_singleton, List.singleton_append]
    by_cases hd : d = '0'
    · obtain ⟨n, hn⟩ := ih
      refine ⟨n + 1, ?_⟩
      rw [hd, List.dropWhile_cons_of_pos rfl, List.replicate_succ', ← List.append_assoc, hn]
    · refine ⟨0, ?_⟩
      rw [List.dropWhile_cons_of_neg (by simpa using hd)]
      simp

end Infill.Numeral
