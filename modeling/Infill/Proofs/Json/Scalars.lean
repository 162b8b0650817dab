import Infill.Json.Printer
import Infill.Json.Reader
import Infill.Proofs.Number.Digits
import Infill.Proofs.Result
import Infill.Proofs.Text.Utf8

/-!
# Reading written numbers and strings

A whole number of 64 bits is read back from its numeral, and any text from between its quotes, whatever
characters it has.  A numeral has no end of its own: what stands behind it must not go on like a number,
which the comma and the line break behind a written value do not (`EndsValue`).
-/

set_option autoImplicit false

namespace Infill.Json

/-- What stands behind a written value: nothing, a comma or a line break. -/
def EndsValue (rest : Bytes) : Prop := ∀ b ∈ rest.head?, b = ','.toUInt8 ∨ b = '\n'.toUInt8

/-- A value ends at the end. -/
theorem endsValue_nil : EndsValue [] := by simp [EndsValue]

/-- A value ends at a comma. -/
theorem endsValue_comma (rest : Bytes) : EndsValue (','.toUInt8 :: rest) := by simp [EndsValue]

/-- A value ends at a line break. -/
theorem endsValue_newline (rest : Bytes) : EndsValue ('\n'.toUInt8 :: rest) := by simp [EndsValue]

/-! ## Runs of digits -/

/-- The byte of a digit is a digit of the same value. -/
theorem toUInt8_of_isDigit {c : Char} (h : c.isDigit = true) :
    c.toNat < 0x80 ∧ isDigit c.toUInt8 = true ∧ digitValue c.toUInt8 = c.toNat - '0'.toNat := by
  have hrange := Char.isDigit_iff_toNat.1 h
  have hnine : '9'.toNat = 57 := rfl
  have hbyte : c.toUInt8.toNat = c.toNat := by
    rw [Char.toUInt8, UInt32.toNat_toUInt8]
    exact Nat.mod_eq_of_lt (show c.toNat < 2 ^ 8 by omega)
  refine ⟨by omega, ?_, ?_⟩
  · unfold isDigit
    simp only [Bool.and_eq_true, decide_eq_true_eq, UInt8.le_iff_toNat_le, hbyte]
    exact hrange
  · rw [digitValue, hbyte]

section Digits

variable {digits : Text} (h : ∀ c ∈ digits, c.isDigit = true)
include h

/-- The bytes of digits are one for each. -/
theorem encode_digits : Utf8.encode digits = digits.map Char.toUInt8 := by
  induction digits with
  | nil => rfl
  | cons c digits ih =>
    obtain ⟨hc, hdigits⟩ := List.forall_mem_cons.1 h
    rw [Utf8.encode_cons_of_ascii (toUInt8_of_isDigit hc).1, ih hdigits, List.map_cons]

/-- They are digits themselves. -/
theorem forall_isDigit_encode : ∀ b ∈ Utf8.encode digits, isDigit b = true := by
  intro b hb
  rw [encode_digits h] at hb
  obtain ⟨c, hc, rfl⟩ := List.mem_map.1 hb
  exact (toUInt8_of_isDigit (h c hc)).2.1

/-- Digits are taken in as long as the number stays below the limit. -/
theorem absorb_digits {limit n : Nat} (hlimit : digits.foldl Numeral.push n < limit) :
    absorb limit n (Utf8.encode digits) = (digits.foldl Numeral.push n, []) := by
  rw [encode_digits h]
  induction digits generalizing n with
  | nil => rfl
  | cons c digits ih =>
    obtain ⟨hc, hdigits⟩ := List.forall_mem_cons.1 h
    rw [List.foldl_cons] at hlimit ⊢
    have hpush : Numeral.push n c < limit := Nat.lt_of_le_of_lt (Numeral.le_foldl_push _ digits) hlimit
    rw [List.map_cons, absorb, (toUInt8_of_isDigit hc).2.2]
    exact (if_pos hpush).trans (ih hdigits hlimit)

/-- Digits are taken up to what stands behind them. -/
theorem takeWhile_isDigit_append {rest : Bytes} (hrest : rest.head?.any isDigit = false) :
    (Utf8.encode digits ++ rest).takeWhile isDigit = Utf8.encode digits ∧
      (Utf8.encode digits ++ rest).dropWhile isDigit = rest := by
  have hdigits := forall_isDigit_encode h
  rw [List.takeWhile_append_of_pos hdigits, List.dropWhile_append_of_pos hdigits]
  cases rest with
  | nil => exact ⟨List.append_nil _, rfl⟩
  | cons b rest =>
    have hb : ¬ isDigit b = true := by simpa using hrest
    rw [List.takeWhile_cons_of_neg hb, List.dropWhile_cons_of_neg hb, List.append_nil]
    exact ⟨rfl, rfl⟩

end Digits

/-! ## Whole numbers -/

/-- A run of digits that begins with zero only if it is nothing else. -/
structure IsWhole (digits : Text) : Prop where
  digit (c : Char) (h : c ∈ digits) : c.isDigit = true
  first : ∃ c more, digits = c :: more ∧ (c ≠ '0' ∨ more = [])

/-- The numeral of a number has no zero in front that could be left out. -/
theorem isWhole_ofNat (n : Nat) : IsWhole (Numeral.ofNat n) := by
  refine ⟨fun c hc => Numeral.isDigit_of_mem_ofNat hc, ?_⟩
  rcases Nat.eq_zero_or_pos n with rfl | hn
  · exact ⟨'0', [], rfl, .inr rfl⟩
  · obtain ⟨c, more, hnumeral, hc⟩ := Numeral.exists_cons_ofNat hn
    exact ⟨c, more, hnumeral, .inl hc⟩

/-- In front of their last digit, digits that begin with zero only if they are nothing else begin with another
digit, so that they make a number. -/
theorem IsWhole.front {digits : Text} {d : Char} (h : IsWhole (digits ++ [d])) (hne : digits ≠ []) :
    IsWhole digits ∧ 0 < Numeral.value digits := by
  have hdigit : ∀ c ∈ digits, c.isDigit = true := fun c hc => h.digit c (List.mem_append_left _ hc)
  obtain ⟨c, more, rfl⟩ := List.exists_cons_of_ne_nil hne
  obtain ⟨c', more', hdigits, hfirst⟩ := h.first
  obtain ⟨rfl, rfl⟩ := List.cons.inj hdigits
  have hc : c ≠ '0' := hfirst.resolve_right (by simp)
  have hpow := Numeral.pow_le_value (hdigit c List.mem_cons_self) hc more
  exact ⟨⟨hdigit, c, more, rfl, .inl hc⟩, (Nat.pow_pos (by decide)).trans_le hpow⟩

/-- A number has no other digits without zeros in front than those of its numeral. -/
theorem IsWhole.ofNat_value {digits : Text} (h : IsWhole digits) :
    Numeral.ofNat (Numeral.value digits) = digits := by
  induction digits using List.reverseRecOn with
  | nil =>
    obtain ⟨c, more, hdigits, -⟩ := h.first
    cases hdigits
  | append_singleton digits d ih =>
    have hd : d.isDigit = true := h.digit d (by simp)
    have hworth := (Numeral.toNat_sub_of_isDigit hd).1
    rw [Numeral.value_append_singleton]
    by_cases hne : digits = []
    · rw [hne, Numeral.value, List.foldl_nil, Nat.mul_zero, Nat.zero_add, Numeral.ofNat,
        Nat.toDigits_of_lt_base hworth, Numeral.digitChar_toNat_sub hd, List.nil_append]
    · obtain ⟨hfront, hpos⟩ := h.front hne
      rw [Numeral.ofNat_mul_add hpos hworth, ih hfront, Numeral.digitChar_toNat_sub hd]

/-- A numeral below the limit is taken in as its number. -/
theorem absorb_ofNat {limit n : Nat} (h : n < limit) :
    absorb limit 0 (Utf8.encode (Numeral.ofNat n)) = (n, []) := by
  have hvalue := Numeral.value_ofNat n
  rw [Numeral.value_eq_foldl_push] at hvalue
  rw [absorb_digits (isWhole_ofNat n).digit (by rwa [hvalue]), hvalue]

/-- Digits of a whole number begin with a zero only if that is all. -/
theorem IsWhole.exists_cons {digits : Text} (h : IsWhole digits) :
    ∃ b tail, Utf8.encode digits = b :: tail ∧ isDigit b = true ∧ (b ≠ '0'.toUInt8 ∨ tail = []) := by
  obtain ⟨c, more, rfl, hc⟩ := h.first
  obtain ⟨hascii, hdigit, hvalue⟩ := toUInt8_of_isDigit (h.digit c List.mem_cons_self)
  refine ⟨c.toUInt8, Utf8.encode more, Utf8.encode_cons_of_ascii hascii more, hdigit, ?_⟩
  rcases hc with hc | rfl
  · refine .inl fun hbyte => hc ?_
    rw [hbyte] at hvalue
    exact (Numeral.toNat_sub_of_isDigit (h.digit c List.mem_cons_self)).2 hvalue.symm
  · exact .inr rfl

/-- The digits in front of a point or an exponent, or of what stands behind the number. -/
theorem readUnsigned_digits (negative : Bool) {digits : Text} (h : IsWhole digits)
    (hlimit : Numeral.value digits < Nat.pow 2 64) {rest : Bytes} (hrest : rest.head?.any isDigit = false) :
    readUnsigned negative (Utf8.encode digits ++ rest) =
      match rest with
      | b :: tail =>
        if b = '.'.toUInt8 then readFraction ⟨negative, Numeral.value digits, 0⟩ tail
        else if b = 'e'.toUInt8 ∨ b = 'E'.toUInt8 then
          readExponent ⟨negative, Numeral.value digits, 0⟩ tail
        else (wholeNumber negative (Numeral.value digits) rest).map (·, rest)
      | [] => (wholeNumber negative (Numeral.value digits) []).map (·, []) := by
  have habsorb := absorb_digits h.digit hlimit
  obtain ⟨b, tail, htext, hb, hzero⟩ := h.exists_cons
  obtain ⟨htake, hdrop⟩ := takeWhile_isDigit_append h.digit hrest
  have hnext : ¬ (b = '0'.toUInt8 ∧ (tail ++ rest).head?.any isDigit = true) := by
    rintro ⟨rfl, hnext⟩
    rcases hzero with hzero | rfl
    · exact hzero rfl
    · rw [List.nil_append, hrest] at hnext
      cases hnext
  rw [htext, List.cons_append] at htake hdrop ⊢
  rw [htext] at habsorb
  rw [← Numeral.value_eq_foldl_push] at habsorb
  rw [readUnsigned]
  simp only [hb, Bool.not_true, Bool.false_eq_true, if_false, hnext, htake, hdrop, habsorb]
  cases rest with
  | nil => rfl
  | cons c rest => rfl

/-- Where a value ends no digit follows. -/
theorem EndsValue.not_isDigit {rest : Bytes} (h : EndsValue rest) : rest.head?.any isDigit = false := by
  cases rest with
  | nil => rfl
  | cons b rest =>
    rcases h b rfl with rfl | rfl <;> rfl

/-- A numeral is read as the whole number that it is. -/
theorem readUnsigned_ofNat (negative : Bool) {n : Nat} (hn : n < Nat.pow 2 64) {rest : Bytes}
    (h : EndsValue rest) :
    readUnsigned negative (Utf8.encode (Numeral.ofNat n) ++ rest) =
      (wholeNumber negative n rest).map (·, rest) := by
  have hvalue := Numeral.value_ofNat n
  rw [readUnsigned_digits negative (isWhole_ofNat n) (by rwa [hvalue]) h.not_isDigit, hvalue]
  cases rest with
  | nil => rfl
  | cons c rest =>
    rcases h c rfl with rfl | rfl <;> rfl

/-- A whole number begins with its sign or a digit. -/
theorem exists_cons_ofInt (n : Int) :
    ∃ b tail, Utf8.encode (Numeral.ofInt n) = b :: tail ∧ (b = '-'.toUInt8 ∨ isDigit b = true) := by
  unfold Numeral.ofInt
  by_cases h : n < 0
  · rw [if_pos h]
    exact ⟨_, _, Utf8.encode_cons_of_ascii (by decide) _, .inl rfl⟩
  · obtain ⟨b, tail, htext, hb, -⟩ := (isWhole_ofNat n.natAbs).exists_cons
    rw [if_neg h]
    exact ⟨b, tail, htext, .inr hb⟩

/-- A number is read back if it is a whole number of 64 bits. -/
theorem readNumber_ofInt {n : Int} (hn : (Number.integer n).InRange) {rest : Bytes}
    (h : EndsValue rest) :
    readNumber (Utf8.encode (Numeral.ofInt n) ++ rest) = .ok (.integer n, rest) := by
  have hlow : -((2 ^ 63 : Nat) : Int) ≤ n := hn.1
  have hhigh : n < ((2 ^ 64 : Nat) : Int) := hn.2
  have hsmall : n.natAbs < Nat.pow 2 64 := by
    show n.natAbs < 2 ^ 64
    omega
  unfold Numeral.ofInt
  by_cases hsign : n < 0
  · have hrange : n.natAbs ≠ 0 ∧ n.natAbs ≤ Nat.pow 2 63 := by
      show n.natAbs ≠ 0 ∧ n.natAbs ≤ 2 ^ 63
      omega
    have hnumber : wholeNumber true n.natAbs rest = .ok (.integer n) := by
      have hback : -(n.natAbs : Int) = n := by omega
      rw [wholeNumber, if_neg (by decide), if_pos hrange, hback]
    rw [if_pos hsign, Utf8.encode_cons_of_ascii (by decide), List.cons_append, readNumber, if_pos rfl,
      readUnsigned_ofNat true hsmall h, hnumber]
    rfl
  · have hnumber : wholeNumber false n.natAbs rest = .ok (.integer n) := by
      have hback : (n.natAbs : Int) = n := by omega
      rw [wholeNumber, if_pos (by decide), hback]
    have hunsigned := readUnsigned_ofNat false hsmall h
    obtain ⟨b, tail, htext, hb, -⟩ := (isWhole_ofNat n.natAbs).exists_cons
    have hminus : b ≠ '-'.toUInt8 := by
      rintro rfl
      cases hb
    rw [htext, hnumber] at hunsigned
    rw [if_neg hsign, htext, List.cons_append, readNumber, if_neg hminus]
    exact hunsigned

/-! ## Strings -/

section StringBytes

variable (read rest : Bytes)

/-- A quotation mark ends a string. -/
theorem readStringBytes_quote : readStringBytes read ('"'.toUInt8 :: rest) = .ok (read.reverse, rest) := by
  rw [readStringBytes.eq_def]
  rfl

/-- A byte that stands for itself inside a string. -/
def IsPlainByte (b : UInt8) : Prop := b ≠ '"'.toUInt8 ∧ b ≠ '\\'.toUInt8 ∧ ¬ b < 0x20

/-- A plain byte stands for itself. -/
theorem readStringBytes_plain {b : UInt8} (h : IsPlainByte b) :
    readStringBytes read (b :: rest) = readStringBytes (b :: read) rest := by
  obtain ⟨hquote, hbackslash, hcontrol⟩ := h
  rw [readStringBytes.eq_def]
  dsimp only
  rw [if_neg hquote, if_neg hbackslash, if_neg hcontrol]

/-- A short escape sequence stands for one byte. -/
theorem readStringBytes_escape {e b : UInt8} (h : escapeValue? e = some b) :
    readStringBytes read ('\\'.toUInt8 :: e :: rest) = readStringBytes (b :: read) rest := by
  have hletter : e ≠ 'u'.toUInt8 := by
    rintro rfl
    cases h
  rw [readStringBytes.eq_def]
  dsimp only
  rw [if_neg (by decide), if_pos rfl, if_neg hletter, h]

/-- A numbered escape sequence stands for its character, below the surrogates. -/
theorem readStringBytes_unit {a b c d : UInt8} {unit : Nat} (h : codeUnit? a b c d = some unit)
    (hunit : unit < 0xD800) :
    readStringBytes read ('\\'.toUInt8 :: 'u'.toUInt8 :: a :: b :: c :: d :: rest) =
      readStringBytes ((Utf8.encode [Char.ofNat unit]).reverse ++ read) rest := by
  rw [readStringBytes.eq_def]
  dsimp only
  rw [if_neg (by decide), if_pos rfl, if_pos rfl, h]
  dsimp only
  rw [if_neg (by omega), if_neg (by omega)]

end StringBytes

/-- Plain bytes stand for themselves. -/
theorem readStringBytes_of_isPlainByte {bytes : Bytes} (h : ∀ b ∈ bytes, IsPlainByte b)
    (read rest : Bytes) :
    readStringBytes read (bytes ++ rest) = readStringBytes (bytes.reverse ++ read) rest := by
  induction bytes generalizing read with
  | nil => rfl
  | cons b bytes ih =>
    rw [List.cons_append, readStringBytes_plain _ _ (h b List.mem_cons_self),
      ih fun c hc => h c (List.mem_cons_of_mem b hc)]
    simp

/-- A character that is no control character is written in bytes that stand for themselves, unless it is
the quote or the backslash. -/
theorem forall_isPlainByte {c : Char} (hquote : c ≠ '"') (hbackslash : c ≠ '\\')
    (hcontrol : ¬ c.toNat < 0x20) : ∀ b ∈ String.utf8EncodeChar c, IsPlainByte b := by
  intro b hb
  have hbyte := Utf8.eq_or_le_of_mem_utf8EncodeChar c b hb
  have hquote' : c.toNat ≠ 34 := fun h => hquote (Char.toNat_inj.1 h)
  have hbackslash' : c.toNat ≠ 92 := fun h => hbackslash (Char.toNat_inj.1 h)
  refine ⟨?_, ?_, ?_⟩
  · rintro rfl
    have hnumber : '"'.toUInt8.toNat = 34 := rfl
    omega
  · rintro rfl
    have hnumber : '\\'.toUInt8.toNat = 92 := rfl
    omega
  · rw [UInt8.lt_iff_toNat_lt]
    simp only [UInt8.reduceToNat]
    omega

/-- A hexadecimal digit is an ASCII character and read as the digit that it is. -/
theorem hexDigit_spec (n : Nat) :
    (hexDigit n).toNat < 0x80 ∧ hexValue? (hexDigit n).toUInt8 = some (n % 16) := by
  have hdigits : ∀ d < 16, d.digitChar.toNat < 0x80 ∧ hexValue? d.digitChar.toUInt8 = some d := by decide
  exact hdigits (n % 16) (Nat.mod_lt n (by decide))

/-- A written character is read as its bytes. -/
theorem readStringBytes_escapeChar (c : Char) (read rest : Bytes) :
    readStringBytes read (Utf8.encode (escapeChar c) ++ rest) =
      readStringBytes ((Utf8.encode [c]).reverse ++ read) rest := by
  unfold escapeChar
  split_ifs with hquote hbackslash h₁ h₂ h₃ h₄ h₅ hcontrol
  · subst hquote
    exact readStringBytes_escape read rest rfl
  · subst hbackslash
    exact readStringBytes_escape read rest rfl
  · subst h₁
    exact readStringBytes_escape read rest rfl
  · subst h₂
    exact readStringBytes_escape read rest rfl
  · subst h₃
    exact readStringBytes_escape read rest rfl
  · subst h₄
    exact readStringBytes_escape read rest rfl
  · subst h₅
    exact readStringBytes_escape read rest rfl
  · -- Two hexadecimal digits are enough for a control character.
    obtain ⟨hhigh, hhighValue⟩ := hexDigit_spec (c.toNat / 16)
    obtain ⟨hlow, hlowValue⟩ := hexDigit_spec c.toNat
    have hunit : codeUnit? '0'.toUInt8 '0'.toUInt8 (hexDigit (c.toNat / 16)).toUInt8
        (hexDigit c.toNat).toUInt8 = some c.toNat := by
      have hzero : hexValue? '0'.toUInt8 = some 0 := rfl
      have hsum : ((0 * 16 + 0) * 16 + c.toNat / 16 % 16) * 16 + c.toNat % 16 = c.toNat := by omega
      rw [codeUnit?, hzero, hhighValue, hlowValue]
      exact congrArg some hsum
    have hread := readStringBytes_unit read rest hunit (by omega)
    rw [Char.ofNat_toNat] at hread
    simp only [Utf8.encode_cons_of_ascii (show '\\'.toNat < 0x80 by decide),
      Utf8.encode_cons_of_ascii (show 'u'.toNat < 0x80 by decide),
      Utf8.encode_cons_of_ascii (show '0'.toNat < 0x80 by decide),
      Utf8.encode_cons_of_ascii hhigh, Utf8.encode_cons_of_ascii hlow]
    exact hread
  · rw [Utf8.encode_singleton]
    exact readStringBytes_of_isPlainByte (forall_isPlainByte hquote hbackslash hcontrol) read rest

/-- A written text is read back. -/
theorem readString_quoted (s : Text) (rest : Bytes) :
    readString (Utf8.encode (s.flatMap escapeChar ++ ['"']) ++ rest) = .ok (s, rest) := by
  have hbytes : ∀ read : Bytes,
      readStringBytes read (Utf8.encode (s.flatMap escapeChar ++ ['"']) ++ rest) =
        .ok (read.reverse ++ Utf8.encode s, rest) := by
    induction s with
    | nil =>
      intro read
      rw [Utf8.encode_nil, List.append_nil]
      exact readStringBytes_quote read rest
    | cons c s ih =>
      intro read
      rw [List.flatMap_cons, List.append_assoc, Utf8.encode_append, List.append_assoc,
        readStringBytes_escapeChar, ih, List.reverse_append, List.reverse_reverse, List.append_assoc,
        ← Utf8.encode_append]
      rfl
  rw [readString]
  refine Result.bind_eq_ok.2 ⟨_, hbytes [], ?_⟩
  dsimp only
  rw [List.reverse_nil, List.nil_append, Utf8.decode?_encode]

end Infill.Json
