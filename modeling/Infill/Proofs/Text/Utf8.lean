import Mathlib.Tactic.SplitIfs
import Infill.Text.Utf8

/-!
# Bytes of a text

A character takes one to four bytes, and how many there are and where they lie is told by its number
(`Encodes`).  The bytes of a character are where a sequence begins with it, and nothing else is, so that
bytes are decoded to a text exactly if they are the bytes of that text (`decode?_eq_some_iff`).  An ASCII
character is its own byte, and no byte of another character is an ASCII one.  The bytes of
texts are ordered as the texts are (`encode_lt_encode`).
-/

set_option autoImplicit false

namespace Infill.Utf8

/-- No text has no bytes. -/
@[simp] theorem encode_nil : encode [] = [] := rfl

/-- The bytes of a text begin with those of its first character. -/
theorem encode_cons (c : Char) (t : Text) : encode (c :: t) = String.utf8EncodeChar c ++ encode t := rfl

/-- The bytes of one character. -/
theorem encode_singleton (c : Char) : encode [c] = String.utf8EncodeChar c := List.append_nil _

/-- The bytes of two texts, one behind the other. -/
@[simp] theorem encode_append (s t : Text) : encode (s ++ t) = encode s ++ encode t := List.flatMap_append

/-! ## The bytes of a character -/

/-- The bytes of a character: the first tells how many there are and has its high bits, and each of the
others has six bits more. -/
inductive Encodes (c : Char) : Bytes → Prop where
  | one {a : UInt8} (hc : c.toNat < 0x80) (ha : a.toNat = c.toNat) : Encodes c [a]
  | two {a b : UInt8} (hc : 0x80 ≤ c.toNat ∧ c.toNat < 0x800)
      (ha : a.toNat = 0xC0 + c.toNat / 64) (hb : b.toNat = 0x80 + c.toNat % 64) : Encodes c [a, b]
  | three {a b₁ b₂ : UInt8} (hc : 0x800 ≤ c.toNat ∧ c.toNat < 0x10000)
      (ha : a.toNat = 0xE0 + c.toNat / 64 / 64) (h₁ : b₁.toNat = 0x80 + c.toNat / 64 % 64)
      (h₂ : b₂.toNat = 0x80 + c.toNat % 64) : Encodes c [a, b₁, b₂]
  | four {a b₁ b₂ b₃ : UInt8} (hc : 0x10000 ≤ c.toNat)
      (ha : a.toNat = 0xF0 + c.toNat / 64 / 64 / 64) (h₁ : b₁.toNat = 0x80 + c.toNat / 64 / 64 % 64)
      (h₂ : b₂.toNat = 0x80 + c.toNat / 64 % 64) (h₃ : b₃.toNat = 0x80 + c.toNat % 64) :
      Encodes c [a, b₁, b₂, b₃]

/-- Characters have no numbers of surrogates. -/
theorem toNat_valid (c : Char) : c.toNat < 0xD800 ∨ 0xDFFF < c.toNat ∧ c.toNat < 0x110000 := c.valid

/-- The bytes of a character are of one of the four forms. -/
theorem encodes_utf8EncodeChar (c : Char) : Encodes c (String.utf8EncodeChar c) := by
  have hvalid := toNat_valid c
  have hval : c.val.toNat = c.toNat := rfl
  have hbyte : ∀ {n m : Nat}, n % 256 = m → (UInt8.ofNat n).toNat = m := by
    intro n m h
    rw [UInt8.toNat_ofNat', h]
  unfold String.utf8EncodeChar
  dsimp only
  rw [hval]
  split_ifs with h₁ h₂ h₃
  · exact .one (by omega) (hbyte (by omega))
  · exact .two (by omega) (hbyte (by omega)) (hbyte (by omega))
  · exact .three (by omega) (hbyte (by omega)) (hbyte (by omega)) (hbyte (by omega))
  · exact .four (by omega) (hbyte (by omega)) (hbyte (by omega)) (hbyte (by omega)) (hbyte (by omega))

/-- The bytes of a character are known by it. -/
theorem Encodes.eq_utf8EncodeChar {c : Char} {bytes : Bytes} (h : Encodes c bytes) :
    bytes = String.utf8EncodeChar c := by
  have h' := encodes_utf8EncodeChar c
  generalize String.utf8EncodeChar c = other at h'
  -- Two different lengths contradict each other, and bytes of one length are compared one by one.
  cases h <;> cases h' <;>
    first
      | omega
      | simp only [List.cons.injEq, and_true, ← UInt8.toNat_inj]; omega

/-- An ASCII character is its own byte. -/
theorem encode_cons_of_ascii {c : Char} (h : c.toNat < 0x80) (t : Text) :
    encode (c :: t) = c.toUInt8 :: encode t := by
  have hbyte : c.toUInt8.toNat = c.toNat := by
    show (UInt8.ofNat c.toNat).toNat = c.toNat
    rw [UInt8.toNat_ofNat']
    omega
  have hencodes : Encodes c [c.toUInt8] := .one h hbyte
  rw [encode_cons, ← hencodes.eq_utf8EncodeChar]
  rfl

/-- A character of one byte takes as many bytes as it is there. -/
theorem length_encode_replicate_append {c : Char} (h : c.toNat < 0x80) (k : Nat) (t : Text) :
    (encode (List.replicate k c ++ t)).length = k + (encode t).length := by
  induction k with
  | zero => rw [List.replicate_zero, List.nil_append, Nat.zero_add]
  | succ k ih =>
    rw [List.replicate_succ, List.cons_append, encode_cons_of_ascii h, List.length_cons, ih]
    omega

/-- No byte of a character is an ASCII character other than itself. -/
theorem eq_or_le_of_mem_utf8EncodeChar (c : Char) :
    ∀ b ∈ String.utf8EncodeChar c, b.toNat = c.toNat ∨ 0x80 ≤ b.toNat := by
  have hencodes := encodes_utf8EncodeChar c
  generalize String.utf8EncodeChar c = bytes at hencodes
  cases hencodes <;>
    simp only [List.mem_cons, List.not_mem_nil, or_false, forall_eq_or_imp, forall_eq] <;> omega

/-! ## How a sequence begins -/

/-- A byte continues a character by its number. -/
theorem isTail_iff {b : UInt8} : isTail b = true ↔ 0x80 ≤ b.toNat ∧ b.toNat ≤ 0xBF := by
  simp [isTail, UInt8.le_iff_toNat_le]

/-- A byte may be the second of three by its number. -/
theorem isSecondOfThree_iff {a b : UInt8} :
    isSecondOfThree a b = true ↔
      (0x80 ≤ b.toNat ∧ b.toNat ≤ 0xBF) ∧ (a.toNat = 0xE0 → 0xA0 ≤ b.toNat) ∧
        (a.toNat = 0xED → b.toNat ≤ 0x9F) := by
  unfold isSecondOfThree
  simp only [← UInt8.toNat_inj, UInt8.reduceToNat]
  by_cases hlow : a.toNat = 0xE0
  · simp [hlow, UInt8.le_iff_toNat_le]
    omega
  · by_cases hhigh : a.toNat = 0xED
    · simp [hhigh, UInt8.le_iff_toNat_le]
      omega
    · simp [hlow, hhigh, isTail_iff]

/-- A byte may be the second of four by its number. -/
theorem isSecondOfFour_iff {a b : UInt8} :
    isSecondOfFour a b = true ↔
      (0x80 ≤ b.toNat ∧ b.toNat ≤ 0xBF) ∧ (a.toNat = 0xF0 → 0x90 ≤ b.toNat) ∧
        (a.toNat = 0xF4 → b.toNat ≤ 0x8F) := by
  unfold isSecondOfFour
  simp only [← UInt8.toNat_inj, UInt8.reduceToNat]
  by_cases hlow : a.toNat = 0xF0
  · simp [hlow, UInt8.le_iff_toNat_le]
    omega
  · by_cases hhigh : a.toNat = 0xF4
    · simp [hhigh, UInt8.le_iff_toNat_le]
      omega
    · simp [hlow, hhigh, isTail_iff]

/-- A sequence that starts with the bytes of a character begins with it. -/
theorem start_of_encodes {c : Char} {a : UInt8} {tail : Bytes} (h : Encodes c (a :: tail))
    (rest : Bytes) : start a (tail ++ rest) = .char c (tail.length + 1) := by
  have hvalid := toNat_valid c
  unfold start
  simp only [UInt8.lt_iff_toNat_lt, UInt8.le_iff_toNat_le, UInt8.reduceToNat, decide_eq_true_eq,
    Bool.and_eq_true]
  cases h with
  | one hc ha =>
    rw [if_pos (by omega), ha, Char.ofNat_toNat]
    rfl
  | @two _ b hc ha hb =>
    have hnumber : a.toNat % 32 * 64 + low b = c.toNat := by unfold low; omega
    have htail : isTail b = true := isTail_iff.2 (by omega)
    rw [if_neg (by omega), if_pos (by omega)]
    simp [htail, hnumber]
  | @three _ b₁ b₂ hc ha h₁ h₂ =>
    have hnumber : (a.toNat % 16 * 64 + low b₁) * 64 + low b₂ = c.toNat := by unfold low; omega
    have hsecond : isSecondOfThree a b₁ = true := isSecondOfThree_iff.2 (by omega)
    have htail : isTail b₂ = true := isTail_iff.2 (by omega)
    rw [if_neg (by omega), if_neg (by omega), if_pos (by omega)]
    simp [hsecond, htail, hnumber]
  | @four _ b₁ b₂ b₃ hc ha h₁ h₂ h₃ =>
    have hnumber : ((a.toNat % 8 * 64 + low b₁) * 64 + low b₂) * 64 + low b₃ = c.toNat := by
      unfold low
      omega
    have hsecond : isSecondOfFour a b₁ = true := isSecondOfFour_iff.2 (by omega)
    have htail : isTail b₂ = true := isTail_iff.2 (by omega)
    have htail' : isTail b₃ = true := isTail_iff.2 (by omega)
    rw [if_neg (by omega), if_neg (by omega), if_neg (by omega), if_pos (by omega)]
    simp [hsecond, htail, htail', hnumber]

/-- The number of a character, found in its bytes, is that of the character. -/
theorem toNat_eq_of_ofNat_eq {n : Nat} {c : Char} (hn : n < 0xD800 ∨ 0xDFFF < n ∧ n < 0x110000)
    (h : Char.ofNat n = c) : c.toNat = n := by
  have hvalid : n.isValidChar := hn
  rw [← h, Char.ofNat, dif_pos hvalid]
  rfl

/-- A sequence that begins with a character starts with its bytes. -/
theorem encodes_of_start {a : UInt8} {rest : Bytes} {c : Char} {width : Nat}
    (h : start a rest = .char c width) :
    ∃ tail rest', rest = tail ++ rest' ∧ width = tail.length + 1 ∧ Encodes c (a :: tail) := by
  unfold start at h
  simp only [UInt8.lt_iff_toNat_lt, UInt8.le_iff_toNat_le, UInt8.reduceToNat, decide_eq_true_eq,
    Bool.and_eq_true] at h
  split_ifs at h with hone htwo hthree hfour
  · injection h with hc hwidth
    have hnumber := toNat_eq_of_ofNat_eq (by omega) hc
    exact ⟨[], rest, rfl, hwidth.symm, .one (by omega) hnumber.symm⟩
  · split at h
    · rename_i b rest
      split_ifs at h with hb
      rw [isTail_iff] at hb
      injection h with hc hwidth
      unfold low at hc
      have hnumber := toNat_eq_of_ofNat_eq (by omega) hc
      exact ⟨[b], rest, rfl, hwidth.symm, .two (by omega) (by omega) (by omega)⟩
    · cases h
  · split at h
    · rename_i b₁ rest
      split_ifs at h with h₁
      split at h
      · rename_i b₂ rest
        split_ifs at h with h₂
        rw [isSecondOfThree_iff] at h₁
        rw [isTail_iff] at h₂
        injection h with hc hwidth
        unfold low at hc
        have hnumber := toNat_eq_of_ofNat_eq (by omega) hc
        exact ⟨[b₁, b₂], rest, rfl, hwidth.symm, .three (by omega) (by omega) (by omega) (by omega)⟩
      · cases h
    · cases h
  · split at h
    · rename_i b₁ rest
      split_ifs at h with h₁
      split at h
      · rename_i b₂ rest
        split_ifs at h with h₂
        split at h
        · rename_i b₃ rest
          split_ifs at h with h₃
          rw [isSecondOfFour_iff] at h₁
          rw [isTail_iff] at h₂ h₃
          injection h with hc hwidth
          unfold low at hc
          have hnumber := toNat_eq_of_ofNat_eq (by omega) hc
          exact ⟨[b₁, b₂, b₃], rest, rfl, hwidth.symm,
            .four (by omega) (by omega) (by omega) (by omega) (by omega)⟩
        · cases h
      · cases h
    · cases h

/-! ## Decoding -/

/-- The text of bytes goes on behind a character. -/
theorem decode?_cons_of_encodes {c : Char} {a : UInt8} {tail : Bytes} (h : Encodes c (a :: tail))
    (rest : Bytes) : decode? (a :: (tail ++ rest)) = (decode? rest).map (c :: ·) := by
  rw [decode?, start_of_encodes h]
  simp

/-- Bytes are decoded to a text exactly if they are its bytes. -/
theorem decode?_eq_some_iff {bytes : Bytes} {t : Text} : decode? bytes = some t ↔ bytes = encode t := by
  constructor
  · intro h
    fun_induction decode? bytes generalizing t with
    | case1 =>
      obtain rfl : [] = t := by simpa using h
      rfl
    | case2 a rest c width hstart ih =>
      obtain ⟨t, hrest, rfl⟩ := Option.map_eq_some_iff.1 h
      obtain ⟨tail, rest', rfl, rfl, hencodes⟩ := encodes_of_start hstart
      have hdrop : (tail ++ rest').drop (tail.length + 1 - 1) = rest' := by simp
      rw [hdrop] at ih hrest
      rw [encode_cons, ← hencodes.eq_utf8EncodeChar, ← ih hrest]
      rfl
    | case3 => cases h
  · rintro rfl
    induction t with
    | nil => rw [encode_nil, decode?]
    | cons c t ih =>
      have hencodes := encodes_utf8EncodeChar c
      rw [encode_cons]
      generalize String.utf8EncodeChar c = bytes at hencodes
      cases bytes with
      | nil => cases hencodes
      | cons a tail =>
        rw [List.cons_append, decode?_cons_of_encodes hencodes, ih]
        rfl

/-- The bytes of a text are decoded to it. -/
theorem decode?_encode (t : Text) : decode? (encode t) = some t := decode?_eq_some_iff.2 rfl

/-- Nothing is replaced in the bytes of a text. -/
theorem decodeLossy_encode (t : Text) : decodeLossy (encode t) = t := by
  induction t with
  | nil => rw [encode_nil, decodeLossy]
  | cons c t ih =>
    have hencodes := encodes_utf8EncodeChar c
    rw [encode_cons]
    generalize String.utf8EncodeChar c = bytes at hencodes
    cases bytes with
    | nil => cases hencodes
    | cons a tail =>
      rw [List.cons_append, decodeLossy, start_of_encodes hencodes]
      simp [ih]

/-! ## The order of bytes -/

/-- The bytes of a smaller character come first, whatever follows. -/
theorem Encodes.append_lt_append {c d : Char} {bytes others : Bytes} (hc : Encodes c bytes) (hd : Encodes d others)
    (h : c < d) (rest rest' : Bytes) : bytes ++ rest < others ++ rest' := by
  have hlt : c.toNat < d.toNat := h
  cases hc <;> cases hd <;>
    simp only [List.cons_append, List.nil_append, List.cons_lt_cons_iff, UInt8.lt_iff_toNat_lt, ← UInt8.toNat_inj] <;>
    omega

/-- A text that is not empty has bytes. -/
theorem encode_ne_nil {t : Text} (h : t ≠ []) : encode t ≠ [] := by
  obtain ⟨c, t, rfl⟩ := List.exists_cons_of_ne_nil h
  rw [encode_cons]
  have hencodes := encodes_utf8EncodeChar c
  generalize String.utf8EncodeChar c = bytes at hencodes
  cases hencodes <;> simp

/-- The bytes of a smaller text come first. -/
theorem encode_lt_encode {s t : Text} (h : s < t) : encode s < encode t := by
  induction s generalizing t with
  | nil =>
    have hne : encode t ≠ [] := by
      apply encode_ne_nil
      rintro rfl
      exact List.lt_irrefl [] h
    obtain ⟨b, bytes, hbytes⟩ := List.exists_cons_of_ne_nil hne
    rw [hbytes]
    exact List.nil_lt_cons b bytes
  | cons c s ih =>
    cases t with
    | nil => exact absurd h (List.not_lt_nil _)
    | cons d t =>
      rw [encode_cons, encode_cons]
      rcases List.cons_lt_cons_iff.1 h with hlt | ⟨rfl, hlt⟩
      · exact (encodes_utf8EncodeChar c).append_lt_append (encodes_utf8EncodeChar d) hlt _ _
      · exact List.append_left_lt (ih hlt)

/-! ## Text and its parts -/

/-- The bytes are those of a text. -/
def IsText (bytes : Bytes) : Prop := ∃ t, bytes = encode t

/-- The bytes of a text are text. -/
theorem isText_encode (t : Text) : IsText (encode t) := ⟨t, rfl⟩

/-- Bytes are text if they are decoded. -/
theorem isText_iff {bytes : Bytes} : IsText bytes ↔ decode? bytes ≠ none := by
  constructor
  · rintro ⟨t, rfl⟩
    simp [decode?_encode]
  · intro h
    obtain ⟨t, ht⟩ := Option.ne_none_iff_exists'.1 h
    exact ⟨t, decode?_eq_some_iff.1 ht⟩

/-- Texts one behind the other are text. -/
theorem IsText.append {a b : Bytes} (ha : IsText a) (hb : IsText b) : IsText (a ++ b) := by
  obtain ⟨s, rfl⟩ := ha
  obtain ⟨t, rfl⟩ := hb
  exact ⟨s ++ t, (encode_append s t).symm⟩

/-- Bytes of one-byte characters are text. -/
theorem isText_of_ascii {bytes : Bytes} (h : ∀ b ∈ bytes, b.toNat < 0x80) : IsText bytes := by
  induction bytes with
  | nil => exact isText_encode []
  | cons b bytes ih =>
    obtain ⟨hb, hbytes⟩ := List.forall_mem_cons.1 h
    have hnumber : (Char.ofNat b.toNat).toNat = b.toNat := toNat_eq_of_ofNat_eq (by omega) rfl
    have hencodes : Encodes (Char.ofNat b.toNat) [b] := .one (by omega) hnumber.symm
    have hchar : IsText [b] := ⟨[_], by rw [encode_singleton, ← hencodes.eq_utf8EncodeChar]⟩
    exact hchar.append (ih hbytes)

/-- The first byte of a character has a form of its own. -/
theorem Encodes.isTail {c : Char} {a : UInt8} {tail : Bytes} (h : Encodes c (a :: tail)) :
    isTail a = false ∧ ∀ b ∈ tail, isTail b = true := by
  simp only [← Bool.not_eq_true, isTail_iff]
  have hvalid := toNat_valid c
  cases h <;>
    simp only [List.mem_cons, List.not_mem_nil, or_false, forall_eq_or_imp, forall_eq, false_implies,
      implies_true, and_true] <;> omega

/-- A character that stands in a text, wherever it was found, divides it into texts. -/
theorem IsText.of_append {c : Char} {front rest : Bytes}
    (h : IsText (front ++ (String.utf8EncodeChar c ++ rest))) : IsText front ∧ IsText rest := by
  obtain ⟨t, ht⟩ := h
  have hencodes := encodes_utf8EncodeChar c
  generalize String.utf8EncodeChar c = bytes at ht hencodes
  obtain ⟨a, tail, rfl⟩ : ∃ a tail, bytes = a :: tail := by cases hencodes <;> exact ⟨_, _, rfl⟩
  induction t generalizing front with
  | nil => simp at ht
  | cons d t ih =>
    have hencodes' := encodes_utf8EncodeChar d
    have hchar : IsText (String.utf8EncodeChar d) := ⟨[d], (encode_singleton d).symm⟩
    rw [encode_cons] at ht
    generalize String.utf8EncodeChar d = bytes' at ht hencodes' hchar
    obtain ⟨b, tail', rfl⟩ : ∃ b tail', bytes' = b :: tail' := by cases hencodes' <;> exact ⟨_, _, rfl⟩
    cases front with
    | nil =>
      have hdecode := congrArg decode? ht
      rw [List.nil_append, List.cons_append, List.cons_append, decode?_cons_of_encodes hencodes,
        decode?_cons_of_encodes hencodes', decode?_encode] at hdecode
      obtain ⟨t', ht', -⟩ := Option.map_eq_some_iff.1 hdecode
      exact ⟨isText_encode [], t', decode?_eq_some_iff.1 ht'⟩
    | cons x front =>
      rcases List.append_eq_append_iff.1 ht with ⟨middle, hfront, hmiddle⟩ | ⟨middle, hfront, hmiddle⟩
      · cases middle with
        | nil =>
          obtain ⟨-, hrest⟩ := @ih [] hmiddle
          rw [List.append_nil] at hfront
          exact ⟨hfront ▸ hchar, hrest⟩
        | cons y middle =>
          -- The first byte of the character would be a later byte of another one.
          obtain ⟨rfl, -⟩ := List.cons.inj hmiddle
          obtain ⟨-, htail⟩ := List.cons.inj hfront
          have hlater : isTail a = true := hencodes'.isTail.2 a (htail ▸ by simp)
          rw [hencodes.isTail.1] at hlater
          cases hlater
      · obtain ⟨hmiddle, hrest⟩ := ih hmiddle.symm
        exact ⟨hfront ▸ hchar.append hmiddle, hrest⟩

end Infill.Utf8
