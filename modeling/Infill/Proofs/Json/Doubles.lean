import Infill.Proofs.Json.Scalars
import Infill.Proofs.Number.Reread

/-!
# Reading written doubles

A double is written with a point, with an exponent or with both, and each of these forms is read as its digits,
scaled by a power of ten (`readUnsigned_point`, `readUnsigned_exponent`, `readUnsigned_pointExponent`).  The
digits are few enough to be taken in, and scaling them gives a double again.  So a written double is read as a
number, and as the same one whatever may follow it (`readNumber_doubleText`).
-/

set_option autoImplicit false

namespace Infill.Json

variable {negative : Bool} {front digits : Text} {rest : Bytes} {x : Scientific} {y : Double}

/-! ## Parts of a number -/

/-- A significand that can be scaled is read as the double. -/
theorem toDouble_eq_ok (h : Double.scaled? x.negative x.significand x.power = some y) (rest : Bytes) :
    x.toDouble rest = .ok y := by
  rw [Scientific.toDouble, ← Double.scaled?, h]

/-- Where the value ends behind its digits, they are all of it. -/
theorem readAfterDigits_of_endsValue (h : Double.scaled? x.negative x.significand x.power = some y)
    (hrest : EndsValue rest) :
    readAfterDigits x rest = .ok (.double y, rest) := by
  cases rest with
  | nil =>
    rw [readAfterDigits, toDouble_eq_ok h]
    rfl
  | cons b rest =>
    have hb : ¬ (b = 'e'.toUInt8 ∨ b = 'E'.toUInt8) := by
      rcases hrest b rfl with rfl | rfl <;> decide
    rw [readAfterDigits, if_neg hb, toDouble_eq_ok h]
    rfl

/-- The sign in front of an exponent. -/
def exponentSign (e : Int) : Char := if e < 0 then '-' else '+'

/-- The digits of an exponent are read behind either sign. -/
theorem readExponent_ofNat {e : Int} (he : e.natAbs < Nat.pow 2 31)
    (h : Double.scaled? x.negative x.significand (x.power + e) = some y) (hrest : EndsValue rest) :
    readExponent x ((exponentSign e).toUInt8 :: (Utf8.encode (Numeral.ofNat e.natAbs) ++ rest)) =
      .ok (.double y, rest) := by
  obtain ⟨b, tail, htext, hb, -⟩ := (isWhole_ofNat e.natAbs).exists_cons
  obtain ⟨htake, hdrop⟩ := takeWhile_isDigit_append (isWhole_ofNat e.natAbs).digit hrest.not_isDigit
  have habsorb := absorb_ofNat he
  rw [htext, List.cons_append] at htake hdrop ⊢
  rw [htext] at habsorb
  have hdouble : Scientific.toDouble ⟨x.negative, x.significand, x.power + e⟩ rest = .ok y :=
    toDouble_eq_ok h rest
  have hminus : '-'.toUInt8 ≠ '+'.toUInt8 := by decide
  rw [readExponent]
  by_cases hsign : e < 0
  · have hpower : x.power - e.natAbs = x.power + e := by omega
    simp only [exponentSign, hsign, if_true, hminus, if_false, hb, htake, hdrop, habsorb, Bool.not_true,
      Bool.false_eq_true, hpower, hdouble]
    rfl
  · have hpower : x.power + e.natAbs = x.power + e := by omega
    simp only [exponentSign, hsign, if_true, if_false, hb, htake, hdrop, habsorb, Bool.not_true,
      Bool.false_eq_true, hpower, hdouble]
    rfl

/-! ## Written decimals -/

/-- Digits behind a point lengthen the significand and lower its power. -/
theorem readFraction_digits (h : ∀ c ∈ digits, c.isDigit = true) (hne : digits ≠ [])
    (hlimit : Numeral.value (front ++ digits) < Nat.pow 2 64) (hrest : rest.head?.any isDigit = false) :
    readFraction ⟨negative, Numeral.value front, 0⟩ (Utf8.encode digits ++ rest) =
      readAfterDigits ⟨negative, Numeral.value (front ++ digits), -digits.length⟩ rest := by
  obtain ⟨htake, hdrop⟩ := takeWhile_isDigit_append h hrest
  have hvalue : digits.foldl Numeral.push (Numeral.value front) = Numeral.value (front ++ digits) := by
    rw [Numeral.value_eq_foldl_push, Numeral.value_eq_foldl_push, List.foldl_append]
  have habsorb := absorb_digits h (hvalue ▸ hlimit)
  have hlength : (Utf8.encode digits).length = digits.length := by
    rw [encode_digits h, List.length_map]
  obtain ⟨b, tail, hbytes⟩ := List.exists_cons_of_ne_nil (Utf8.encode_ne_nil hne)
  rw [hbytes] at htake hdrop habsorb hlength ⊢
  unfold readFraction
  simp only [htake, hdrop, habsorb, hvalue, hlength, List.length_nil]
  congr 2
  omega

/-- A number with a point is read, as long as its digits make a number of 64 bits. -/
theorem readUnsigned_point (hfront : IsWhole front) (h : ∀ c ∈ digits, c.isDigit = true) (hne : digits ≠ [])
    (hlimit : Numeral.value (front ++ digits) < Nat.pow 2 64) (negative : Bool) :
    ∃ y, ∀ rest, EndsValue rest →
      readUnsigned negative (Utf8.encode (front ++ '.' :: digits) ++ rest) = .ok (.double y, rest) := by
  have hpoint : '.'.toNat < 0x80 := by decide
  obtain ⟨y, hy⟩ := Double.exists_scaled_of_nonpos negative hlimit
    (show -(digits.length : Int) ≤ 0 by omega)
  refine ⟨y, fun rest hrest => ?_⟩
  rw [Utf8.encode_append, Utf8.encode_cons_of_ascii hpoint, List.append_assoc, List.cons_append,
    readUnsigned_digits negative hfront ((Numeral.value_le_value_append front digits).trans_lt hlimit) rfl]
  dsimp only
  rw [if_pos rfl, readFraction_digits h hne hlimit hrest.not_isDigit]
  exact readAfterDigits_of_endsValue hy hrest

section Exponent

variable {e : Int} (he : e.natAbs < Nat.pow 2 31) (hrest : EndsValue rest)

/-- An exponent of ten, as it is written behind the digits. -/
def exponentText (e : Int) : Text := 'e' :: exponentSign e :: Numeral.ofNat e.natAbs

/-- An exponent is written with its sign. -/
theorem encode_exponentText (e : Int) (rest : Bytes) :
    Utf8.encode (exponentText e) ++ rest =
      'e'.toUInt8 :: (exponentSign e).toUInt8 :: (Utf8.encode (Numeral.ofNat e.natAbs) ++ rest) := by
  have hletter : 'e'.toNat < 0x80 := by decide
  have hsign : (exponentSign e).toNat < 0x80 := by
    unfold exponentSign
    split_ifs <;> decide
  rw [exponentText, Utf8.encode_cons_of_ascii hletter, Utf8.encode_cons_of_ascii hsign]
  rfl

include he hrest

/-- Digits with an exponent are read as the double of that power. -/
theorem readUnsigned_exponent (hfront : IsWhole front) (hlimit : Numeral.value front < Nat.pow 2 64)
    (h : Double.scaled? negative (Numeral.value front) e = some y) :
    readUnsigned negative (Utf8.encode (front ++ exponentText e) ++ rest) = .ok (.double y, rest) := by
  rw [Utf8.encode_append, List.append_assoc, encode_exponentText,
    readUnsigned_digits negative hfront hlimit rfl]
  exact readExponent_ofNat he (by rwa [Int.zero_add]) hrest

/-- Digits with a point and an exponent are read as the double of that power. -/
theorem readUnsigned_pointExponent (hfront : IsWhole front) (hdigits : ∀ c ∈ digits, c.isDigit = true)
    (hne : digits ≠ []) (hlimit : Numeral.value (front ++ digits) < Nat.pow 2 64)
    (h : Double.scaled? negative (Numeral.value (front ++ digits)) (e - digits.length) = some y) :
    readUnsigned negative (Utf8.encode (front ++ '.' :: (digits ++ exponentText e)) ++ rest) =
      .ok (.double y, rest) := by
  have hpoint : '.'.toNat < 0x80 := by decide
  rw [Utf8.encode_append, Utf8.encode_cons_of_ascii hpoint, Utf8.encode_append, List.append_assoc,
    List.cons_append, List.append_assoc, encode_exponentText,
    readUnsigned_digits negative hfront ((Numeral.value_le_value_append front digits).trans_lt hlimit) rfl]
  dsimp only
  rw [if_pos rfl, readFraction_digits hdigits hne hlimit rfl]
  refine readExponent_ofNat he ?_ hrest
  dsimp only
  rwa [neg_add_eq_sub]

end Exponent

section Decimal

open Shortest (Decimal)

variable {d : Decimal}

/-- Digits behind the first of a normal decimal, some of its own or more of them. -/
theorem isWhole_of_first (h : d.IsNormal) {c : Char} {rest front more : Text} (hdigits : d.digits = c :: rest)
    (hfront : front = c :: more) (hmore : ∀ c ∈ more, c.isDigit = true) : IsWhole front := by
  obtain ⟨c', rest', hdigits', hc⟩ := h.first
  obtain rfl : c = c' := (List.cons.inj (hdigits.symm.trans hdigits')).1
  refine ⟨fun c' hc' => ?_, c, more, hfront, .inl hc⟩
  rw [hfront] at hc'
  rcases List.mem_cons.1 hc' with rfl | hc'
  · exact h.isDigit c' (by simp [hdigits])
  · exact hmore c' hc'

/-- A decimal that is written without an exponent is read. -/
theorem readUnsigned_positional (h : d.IsNormal) (hlimit : Numeral.value d.digits < Nat.pow 2 64)
    (hexponent : ¬ (d.exponent < minPositional ∨ maxPositional < d.exponent)) (negative : Bool) :
    ∃ y, ∀ rest, EndsValue rest →
      readUnsigned negative (Utf8.encode (decimalText d) ++ rest) = .ok (.double y, rest) := by
  obtain ⟨c, more, hdigits, -⟩ := h.first
  have hmore : ∀ c ∈ more, c.isDigit = true := fun c' hc' => h.isDigit c' (by simp [hdigits, hc'])
  have hzeros (n : Nat) : ∀ c ∈ List.replicate n '0', c.isDigit = true := by
    intro c hc
    rw [(List.mem_replicate.1 hc).2]
    rfl
  have hmaximum : d.exponent ≤ 15 := not_lt.1 fun hmore => hexponent (.inr hmore)
  unfold decimalText
  dsimp only
  rw [if_neg hexponent]
  split_ifs with hnegative hshort
  · -- Zeros stand between the point and the digits.
    generalize (-d.exponent - 1).toNat = n
    have hall : ∀ c ∈ List.replicate n '0' ++ d.digits, c.isDigit = true :=
      List.forall_mem_append.2 ⟨hzeros n, h.isDigit⟩
    have hvalue : Numeral.value (['0'] ++ (List.replicate n '0' ++ d.digits)) = Numeral.value d.digits :=
      (Numeral.value_replicate_zero_append 1 _).trans (Numeral.value_replicate_zero_append n _)
    rw [← hvalue] at hlimit
    rw [List.append_assoc]
    exact readUnsigned_point (isWhole_ofNat 0) hall (by simp [hdigits]) hlimit negative
  · -- Zeros stand between the digits and the point.
    generalize hn : (d.exponent + 1 - d.digits.length).toNat = n
    have hallZeros : ∀ c ∈ List.replicate n '0' ++ ['0'], c.isDigit = true := by
      rw [← List.replicate_succ']
      exact hzeros (n + 1)
    have hlength : (d.digits ++ List.replicate n '0' ++ ['0']).length ≤ 17 := by
      simp only [List.length_append, List.length_replicate, List.length_singleton]
      omega
    have hvalue : Numeral.value (d.digits ++ List.replicate n '0' ++ ['0']) < Nat.pow 2 64 := by
      rw [List.append_assoc] at hlength ⊢
      calc Numeral.value (d.digits ++ (List.replicate n '0' ++ ['0']))
          < 10 ^ (d.digits ++ (List.replicate n '0' ++ ['0'])).length :=
            Numeral.value_lt_pow (List.forall_mem_append.2 ⟨h.isDigit, hallZeros⟩)
        _ ≤ 10 ^ 17 := Nat.pow_le_pow_right (by decide) hlength
        _ < Nat.pow 2 64 := by decide
    have hfront : d.digits ++ List.replicate n '0' = c :: (more ++ List.replicate n '0') := by
      rw [hdigits, List.cons_append]
    have hwhole := isWhole_of_first h hdigits hfront (List.forall_mem_append.2 ⟨hmore, hzeros n⟩)
    exact readUnsigned_point hwhole (hzeros 1) (by simp) hvalue negative
  · -- The point stands between digits.
    generalize hn : (d.exponent + 1).toNat = n
    obtain ⟨k, rfl⟩ : ∃ k, n = k + 1 := Nat.exists_eq_add_one.2 (by omega)
    have hfront : d.digits.take (k + 1) = c :: more.take k := by rw [hdigits, List.take_succ_cons]
    have hne : d.digits.drop (k + 1) ≠ [] := by
      rw [Ne, List.drop_eq_nil_iff]
      omega
    rw [← List.take_append_drop (k + 1) d.digits] at hlimit
    exact readUnsigned_point (isWhole_of_first h hdigits hfront fun c hc => hmore c (List.mem_of_mem_take hc))
      (fun c hc => h.isDigit c (List.mem_of_mem_drop hc)) hne hlimit negative

/-- A decimal that is written with an exponent is read as the double that it stands for, if it stands for one. -/
theorem readUnsigned_scientific (h : d.IsNormal) (hlimit : Numeral.value d.digits < Nat.pow 2 64)
    (hexponent : d.exponent < minPositional ∨ maxPositional < d.exponent)
    (hsize : d.exponent.natAbs < Nat.pow 2 31)
    (hy : Double.scaled? negative (Numeral.value d.digits) (d.exponent + 1 - d.digits.length) = some y)
    (hrest : EndsValue rest) :
    readUnsigned negative (Utf8.encode (decimalText d) ++ rest) = .ok (.double y, rest) := by
  obtain ⟨c, more, hdigits, -⟩ := h.first
  have hfront : IsWhole [c] := isWhole_of_first h hdigits rfl (by simp)
  have hmore : ∀ c ∈ more, c.isDigit = true := fun c' hc' => h.isDigit c' (by simp [hdigits, hc'])
  have hpower : d.exponent + 1 - d.digits.length = d.exponent - more.length := by
    rw [hdigits, List.length_cons]
    omega
  rw [hpower] at hy
  unfold decimalText
  dsimp only
  rw [if_pos hexponent]
  rw [hdigits] at hlimit hy ⊢
  cases more with
  | nil =>
    rw [List.length_nil, Nat.cast_zero, Int.sub_zero] at hy
    exact readUnsigned_exponent hsize hrest hfront hlimit hy
  | cons c' more => exact readUnsigned_pointExponent hsize hrest hfront hmore (by simp) hlimit hy

end Decimal

/-! ## Written doubles -/

/-- What is read as a number behind its sign begins with a digit. -/
theorem exists_cons_of_readUnsigned {input : Bytes} {r : Number × Bytes}
    (h : readUnsigned negative input = .ok r) : ∃ b tail, input = b :: tail ∧ isDigit b = true := by
  cases input with
  | nil => cases h
  | cons b tail =>
    refine ⟨b, tail, rfl, ?_⟩
    rw [readUnsigned] at h
    by_contra hb
    rw [if_pos (by simpa using hb)] at h
    cases h

section Double

variable {x : Double} (hx : x.IsNormal)
include hx

/-- The digits of a double are read, whatever may follow them. -/
theorem readUnsigned_ofDouble (hpos : 0 < x.mantissa) (negative : Bool) :
    ∃ y, ∀ rest, EndsValue rest →
      readUnsigned negative (Utf8.encode (decimalText (Shortest.ofDouble x)) ++ rest) = .ok (.double y, rest) := by
  obtain ⟨hnormal, hvalue, -, -⟩ := Shortest.ofDouble_spec hx hpos
  have hlimit : Numeral.value (Shortest.ofDouble x).digits < Nat.pow 2 64 := hvalue.trans_lt (by decide)
  by_cases hexponent :
      (Shortest.ofDouble x).exponent < minPositional ∨ maxPositional < (Shortest.ofDouble x).exponent
  · obtain ⟨hlow, hhigh⟩ := Shortest.exponent_ofDouble_bounds hx hpos
    have hsize : (Shortest.ofDouble x).exponent.natAbs < Nat.pow 2 31 :=
      lt_trans (show (Shortest.ofDouble x).exponent.natAbs < 1076 by omega) (by decide)
    obtain ⟨y, hy⟩ := Shortest.exists_scaled_ofDouble hx hpos negative
    exact ⟨y, fun rest hrest => readUnsigned_scientific hnormal hlimit hexponent hsize hy hrest⟩
  · exact readUnsigned_positional hnormal hlimit hexponent negative

/-- Behind its sign, a written double is read, whatever may follow it. -/
theorem exists_doubleText :
    ∃ text y, doubleText x = (if x.negative then ['-'] else []) ++ text ∧ ∀ rest, EndsValue rest →
      readUnsigned x.negative (Utf8.encode text ++ rest) = .ok (.double y, rest) := by
  unfold doubleText
  dsimp only
  by_cases hzero : x.isZero
  · have hdigit : ∀ c ∈ ['0'], c.isDigit = true := by simp
    obtain ⟨y, hy⟩ := readUnsigned_point (isWhole_ofNat 0) hdigit (by simp) (by decide) x.negative
    exact ⟨_, y, if_pos hzero, hy⟩
  · have hpos : 0 < x.mantissa := Nat.pos_of_ne_zero (by simpa [Double.isZero] using hzero)
    obtain ⟨y, hy⟩ := readUnsigned_ofDouble hx hpos x.negative
    exact ⟨_, y, if_neg hzero, hy⟩

/-- A double that was written is read as a number, always the same, whatever may follow it. -/
theorem readNumber_doubleText :
    ∃ n, ∀ rest, EndsValue rest → readNumber (Utf8.encode (doubleText x) ++ rest) = .ok (n, rest) := by
  obtain ⟨text, y, htext, hread⟩ := exists_doubleText hx
  refine ⟨.double y, fun rest hrest => ?_⟩
  have hunsigned := hread rest hrest
  rw [htext]
  cases hsign : x.negative with
  | true =>
    rw [hsign] at hunsigned
    rw [if_pos rfl, List.singleton_append, Utf8.encode_cons_of_ascii (by decide), List.cons_append, readNumber,
      if_pos rfl, hunsigned]
  | false =>
    rw [hsign] at hunsigned
    rw [if_neg Bool.false_ne_true, List.nil_append]
    obtain ⟨b, tail, hinput, hb⟩ := exists_cons_of_readUnsigned hunsigned
    have hminus : b ≠ '-'.toUInt8 := by
      rintro rfl
      cases hb
    rw [hinput] at hunsigned ⊢
    rw [readNumber, if_neg hminus, hunsigned]

/-- A written double begins with its sign or a digit. -/
theorem exists_cons_doubleText :
    ∃ b tail, Utf8.encode (doubleText x) = b :: tail ∧ (b = '-'.toUInt8 ∨ isDigit b = true) := by
  obtain ⟨text, y, htext, hread⟩ := exists_doubleText hx
  rw [htext]
  cases x.negative with
  | true => exact ⟨_, _, Utf8.encode_cons_of_ascii (by decide) text, .inl rfl⟩
  | false =>
    obtain ⟨b, tail, hinput, hb⟩ := exists_cons_of_readUnsigned (hread [] endsValue_nil)
    rw [List.append_nil] at hinput
    exact ⟨b, tail, hinput, .inr hb⟩

end Double

end Infill.Json
