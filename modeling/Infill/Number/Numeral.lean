import Infill.Text.Basic

/-!
# Decimal numerals

Numerals in base ten: how a whole number is written, and the number that a run of digits names.
Main statements: reading what was written gives the number back (`value_ofNat`), and a numeral that is
read digit by digit below a limit is read exactly if the number stays below it (`below?_eq_some_iff`).
-/

set_option autoImplicit false

namespace Infill.Numeral

/-- The decimal numeral of `n`, without leading zeros. -/
def ofNat (n : Nat) : Text := Nat.toDigits 10 n

/-- The decimal numeral of `n`, with a sign only below zero. -/
def ofInt (n : Int) : Text :=
  if n < 0 then '-' :: ofNat n.natAbs else ofNat n.natAbs

/-- The number that a run of digits names; other characters count by their distance from `0`. -/
def value (digits : Text) : Nat := digits.foldl (fun n d => 10 * n + (d.toNat - '0'.toNat)) 0

/-- The number named by a non-empty run of ASCII digits. -/
def value? (digits : Text) : Option Nat :=
  if digits ≠ [] ∧ digits.all Char.isDigit then some (value digits) else none

/-- A number with one more digit behind it. -/
def push (n : Nat) (d : Char) : Nat := 10 * n + (d.toNat - '0'.toNat)

/-- A number with one more digit behind it, if that is a digit and the number stays below `limit`. -/
def pushBelow? (limit n : Nat) (d : Char) : Option Nat :=
  if d.isDigit ∧ push n d < limit then some (push n d) else none

/-- The number named by a non-empty run of ASCII digits, read digit by digit below `limit`. -/
def below? (limit : Nat) (digits : Text) : Option Nat :=
  if digits = [] then none else digits.foldlM (pushBelow? limit) 0

/-- The value of digits is built up from the front. -/
theorem value_eq_foldl_push (digits : Text) : value digits = digits.foldl push 0 := rfl

/-- More digits make no smaller number. -/
theorem le_foldl_push (n : Nat) (digits : Text) : n ≤ digits.foldl push n := by
  induction digits generalizing n with
  | nil => exact Nat.le_refl n
  | cons d digits ih =>
    have hpush : n ≤ push n d := by
      unfold push
      omega
    exact Nat.le_trans hpush (ih (push n d))

/-- Digits are read below a limit exactly if the number that they make is below it: no number on the way is
larger. -/
theorem foldlM_pushBelow?_eq_some_iff {limit n m : Nat} (hn : n < limit) {digits : Text} :
    digits.foldlM (pushBelow? limit) n = some m ↔
      (∀ d ∈ digits, d.isDigit = true) ∧ digits.foldl push n = m ∧ m < limit := by
  induction digits generalizing n with
  | nil =>
    simp only [List.foldlM_nil, List.foldl_nil, List.not_mem_nil, false_implies, implies_true, true_and]
    constructor
    · intro h
      obtain rfl : n = m := by simpa using h
      exact ⟨rfl, hn⟩
    · rintro ⟨rfl, -⟩
      rfl
  | cons d digits ih =>
    rw [List.foldlM_cons, List.foldl_cons, List.forall_mem_cons]
    by_cases hd : d.isDigit = true ∧ push n d < limit
    · rw [pushBelow?, if_pos hd, and_iff_right hd.1]
      exact ih hd.2
    · rw [pushBelow?, if_neg hd]
      constructor
      · intro h
        cases h
      · rintro ⟨⟨hdigit, -⟩, rfl, hlimit⟩
        exact absurd ⟨hdigit, Nat.lt_of_le_of_lt (le_foldl_push _ digits) hlimit⟩ hd

/-- Below a limit exactly the numerals of the numbers below it are read, however long they are. -/
theorem below?_eq_some_iff {limit n : Nat} (hlimit : 0 < limit) {digits : Text} :
    below? limit digits = some n ↔
      digits ≠ [] ∧ (∀ d ∈ digits, d.isDigit = true) ∧ value digits = n ∧ n < limit := by
  unfold below?
  by_cases hempty : digits = []
  · simp [hempty]
  · rw [if_neg hempty, and_iff_right hempty, value_eq_foldl_push]
    exact foldlM_pushBelow?_eq_some_iff hlimit

/-- A digit more multiplies the value by ten and adds to it. -/
theorem value_append_singleton (digits : Text) (d : Char) :
    value (digits ++ [d]) = 10 * value digits + (d.toNat - '0'.toNat) := by
  simp [value, List.foldl_append]

/-- A digit has the value that it was written for. -/
theorem toNat_digitChar_sub {d : Nat} (h : d < 10) : d.digitChar.toNat - '0'.toNat = d := by
  match d, h with
  | 0, _ | 1, _ | 2, _ | 3, _ | 4, _ | 5, _ | 6, _ | 7, _ | 8, _ | 9, _ => rfl

/-- A numeral has the value that it was written for. -/
theorem value_ofNat (n : Nat) : value (ofNat n) = n := by
  induction n using Nat.strongRecOn with
  | _ n ih =>
    rw [ofNat, Nat.toDigits_eq_if (by decide)]
    split
    · rename_i h
      simpa [value] using toNat_digitChar_sub h
    · rename_i h
      have hdiv : n / 10 < n := Nat.div_lt_self (by omega) (by decide)
      rw [value_append_singleton, toNat_digitChar_sub (Nat.mod_lt _ (by decide))]
      have := ih (n / 10) hdiv
      rw [ofNat] at this
      rw [this]
      omega

end Infill.Numeral
