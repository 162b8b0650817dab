import Infill.Proofs.Json.Ordered
import Infill.Proofs.Number.Scaling

/-!
# Numbers of values that are read

Every number that is read is one that a document can hold (`readNumber_yields`): a whole number of 64 bits, since
no more digits are taken in, or what rounding gives, which is a double written in one way.  So the values that
are read have only such numbers (`ranged_of_read`).
-/

set_option autoImplicit false

namespace Infill.Json

open Result (Gives)

/-- The numbers in a value are ones that a document can hold. -/
inductive Ranged : Json → Prop where
  | null : Ranged .null
  | bool (b : Bool) : Ranged (.bool b)
  | number {n : Number} (h : n.InRange) : Ranged (.number n)
  | string (s : Text) : Ranged (.string s)
  | array {items : List Json} (h : ∀ item ∈ items, Ranged item) : Ranged (.array items)
  | object {members : Keyed Json} (h : ∀ member ∈ members, Ranged member.2) : Ranged (.object members)

/-- The object without members has no numbers. -/
theorem ranged_empty : Ranged .empty := .object (by simp)

/-! ## Numbers -/

/-- Digits are taken in up to the limit only. -/
theorem absorb_lt {limit n : Nat} (h : n < limit) (digits : Bytes) : (absorb limit n digits).1 < limit := by
  fun_induction absorb limit n digits with
  | case1 => exact h
  | case2 n d digits hfits ih => exact ih hfits
  | case3 => exact h

/-- A double that is read is normal. -/
theorem toDouble_gives (x : Scientific) (rest : Bytes) : Gives Double.IsNormal (x.toDouble rest) := by
  intro y hy
  rw [Scientific.toDouble] at hy
  split at hy
  · rename_i d hsome
    obtain rfl : d = y := Except.ok.inj hy
    exact Double.isNormal_of_scaled? hsome
  · cases hy

/-- A whole number that is read fits into 64 bits, or is a normal double. -/
theorem wholeNumber_gives (negative : Bool) {n : Nat} (h : n < Nat.pow 2 64) (rest : Bytes) :
    Gives Number.InRange (wholeNumber negative n rest) := by
  have hlimit : n < 2 ^ 64 := h
  refine .ite (.ok ?_) (.branch (fun hrange => .ok ?_) fun _ => .map fun y hy => toDouble_gives _ _ y hy)
  · show -((2 ^ 63 : Nat) : Int) ≤ (n : Int) ∧ (n : Int) < ((2 ^ 64 : Nat) : Int)
    omega
  · have hsmall : n ≤ 2 ^ 63 := hrange.2
    show -((2 ^ 63 : Nat) : Int) ≤ -(n : Int) ∧ -(n : Int) < ((2 ^ 64 : Nat) : Int)
    omega

/-- A number with an exponent is in range. -/
theorem readExponent_yields (x : Scientific) : Reader.Yields (readExponent x) Number.InRange := by
  intro input
  unfold readExponent
  dsimp only
  split
  · exact .error _
  · refine .ite (.error _) ?_
    split
    · exact .bind fun d hd => .ok (toDouble_gives _ _ _ hd)
    · exact .ite (.error _) (.ok (Double.isNormal_zero _))

/-- A number is in range, whatever follows its digits. -/
theorem readAfterDigits_yields (x : Scientific) : Reader.Yields (readAfterDigits x) Number.InRange := by
  intro input
  unfold readAfterDigits
  split
  · exact .ite (readExponent_yields _ _) (.bind fun d hd => .ok (toDouble_gives _ _ _ hd))
  · exact .bind fun d hd => .ok (toDouble_gives _ _ _ hd)

/-- A number with a fraction is in range. -/
theorem readFraction_yields (x : Scientific) : Reader.Yields (readFraction x) Number.InRange := by
  intro input
  unfold readFraction
  dsimp only
  split
  · split
    · exact .error _
    · exact .error _
  · exact readAfterDigits_yields _ _

/-- A number without its sign is in range. -/
theorem readUnsigned_yields (negative : Bool) : Reader.Yields (readUnsigned negative) Number.InRange := by
  intro input
  unfold readUnsigned
  split
  · exact .error _
  · refine .ite (.error _) (.ite (.error _) ?_)
    dsimp only
    -- All digits of a whole number fit in 64 bits.
    have hwhole (digits rest : Bytes) :
        Gives Number.InRange (wholeNumber negative (absorb (Nat.pow 2 64) 0 digits).1 rest) :=
      wholeNumber_gives negative (absorb_lt (by decide) digits) rest
    split
    · refine .ite (readFraction_yields _ _) (.ite (readExponent_yields _ _) (.ite ?_ (readAfterDigits_yields _ _)))
      exact .bind fun n hn => .ok (hwhole _ _ n hn)
    · exact .ite (.bind fun n hn => .ok (hwhole _ _ n hn)) (readAfterDigits_yields _ _)

/-- Every number that is read is one that a document can hold. -/
theorem readNumber_yields : readNumber.Yields Number.InRange := by
  intro input
  unfold readNumber
  split
  · exact .ite (readUnsigned_yields _ _) (readUnsigned_yields _ _)
  · exact readUnsigned_yields _ _

/-- The numbers of a value that is read are ones that a document can hold. -/
theorem ranged_of_read {input : Bytes} {value : Json} (h : read input = .ok value) : value.Ranged :=
  hereditary_of_read ⟨.null, .bool, .string, .array, fun _ => .object⟩
    (fun input n hn => .number (readNumber_yields input n hn)) h

end Infill.Json
