import Infill.Proofs.Json.Passes
import Infill.Proofs.Json.Scalars
import Infill.Store.Documents

/-!
# What can be read

A document that is read is text all through (`isText_of_read`), its brackets are nested no deeper than values
are read (`nesting_le_of_read`), and it is not blank.  The first two hold of all that readers pass over.  For a
string they come down to its bytes, each of which stands for itself or is part of an escape.
-/

set_option autoImplicit false

namespace Infill.Json

/-! ## Strings -/

/-- The escapes of a string: a letter, a code unit, or two of them for one character. -/
inductive IsEscape : Bytes → Prop where
  | letter {e b : UInt8} (h : escapeValue? e = some b) : IsEscape ['\\'.toUInt8, e]
  | unit {a b c d : UInt8} {unit : Nat} (h : codeUnit? a b c d = some unit) :
      IsEscape ['\\'.toUInt8, 'u'.toUInt8, a, b, c, d]
  | pair {first second : Bytes} (h : IsEscape first) (h' : IsEscape second) : IsEscape (first ++ second)

/-- The byte that an escaped letter stands for is a character. -/
theorem exists_char_of_escapeValue? {e b : UInt8} (h : escapeValue? e = some b) :
    ∃ c : Char, String.utf8EncodeChar c = [b] := by
  unfold escapeValue? at h
  split_ifs at h
  · exact ⟨'"', by cases h; rfl⟩
  · exact ⟨'\\', by cases h; rfl⟩
  · exact ⟨'/', by cases h; rfl⟩
  · exact ⟨'\x08', by cases h; rfl⟩
  · exact ⟨'\x0c', by cases h; rfl⟩
  · exact ⟨'\n', by cases h; rfl⟩
  · exact ⟨'\r', by cases h; rfl⟩
  · exact ⟨'\t', by cases h; rfl⟩

/-- A string that is read consists of bytes that stand for themselves and of escapes of characters, up to its
closing quote. -/
theorem readStringBytes_induction {P : Bytes → Bytes → Prop} {bytes rest : Bytes}
    (hquote : P bytes.reverse ('"'.toUInt8 :: rest))
    (hplain : ∀ read input b, IsPlainByte b → P (b :: read) input → P read (b :: input))
    (hescape : ∀ read input escape c, IsEscape escape →
      P ((String.utf8EncodeChar c).reverse ++ read) input → P read (escape ++ input))
    {read input : Bytes} (h : readStringBytes read input = .ok (bytes, rest)) : P read input := by
  fun_induction readStringBytes read input with
  | case2 read digits =>
    obtain ⟨rfl, rfl⟩ : read.reverse = bytes ∧ digits = rest := by simpa using h
    rwa [List.reverse_reverse] at hquote
  | case11 read _ _ _ _ _ hfirst _ _ x hx y hy _ _ _ _ _ _ hsecond _ _ _ ih =>
    obtain rfl : x = '\\'.toUInt8 := by simpa using hx
    obtain rfl : y = 'u'.toUInt8 := by simpa using hy
    have hread := ih h
    rw [Utf8.encode_singleton] at hread
    exact hescape _ _ _ _ (.pair (.unit hfirst) (.unit hsecond)) hread
  | case14 read _ _ _ _ _ _ hunit _ _ _ ih =>
    have hread := ih h
    rw [Utf8.encode_singleton] at hread
    exact hescape _ _ _ _ (.unit hunit) hread
  | case16 read e rest' _ b hvalue _ ih =>
    obtain ⟨c, hc⟩ := exists_char_of_escapeValue? hvalue
    have hread : P ([b] ++ read) rest' := ih h
    rw [← List.reverse_singleton, ← hc] at hread
    exact hescape _ _ _ _ (.letter hvalue) hread
  | case19 read b input hquote' hbackslash hcontrol ih =>
    exact hplain _ _ _ ⟨hquote', hbackslash, hcontrol⟩ (ih h)
  | _ => cases h

/-! ## What is read is text -/

/-- A hexadecimal digit is an ASCII character, and neither the quote nor the backslash. -/
theorem isPlainByte_of_hexValue? {b : UInt8} {n : Nat} (h : hexValue? b = some n) :
    b.toNat < 0x80 ∧ IsPlainByte b := by
  have hrange : 48 ≤ b.toNat ∧ b.toNat ≤ 57 ∨ 97 ≤ b.toNat ∧ b.toNat ≤ 102 ∨
      65 ≤ b.toNat ∧ b.toNat ≤ 70 := by
    unfold hexValue? isDigit at h
    simp only [Bool.and_eq_true, decide_eq_true_eq, UInt8.le_iff_toNat_le] at h
    split_ifs at h with hdigit hlower hupper
    · exact .inl hdigit
    · exact .inr (.inl hlower)
    · exact .inr (.inr hupper)
  have hother : ∀ c : UInt8, c.toNat = 34 ∨ c.toNat = 92 → b ≠ c := by
    rintro c hc rfl
    omega
  refine ⟨by omega, hother _ (.inl rfl), hother _ (.inr rfl), ?_⟩
  rw [UInt8.lt_iff_toNat_lt]
  simp only [UInt8.reduceToNat]
  omega

/-- The digits of a code unit. -/
theorem forall_of_codeUnit? {a b c d : UInt8} {unit : Nat} (h : codeUnit? a b c d = some unit) :
    ∀ x ∈ [a, b, c, d], x.toNat < 0x80 ∧ IsPlainByte x := by
  unfold codeUnit? at h
  simp only [bind, Option.bind_eq_some_iff] at h
  obtain ⟨_, ha, _, hb, _, hc, _, hd, _⟩ := h
  simp only [List.mem_cons, List.not_mem_nil, or_false, forall_eq_or_imp, forall_eq]
  exact ⟨isPlainByte_of_hexValue? ha, isPlainByte_of_hexValue? hb, isPlainByte_of_hexValue? hc,
    isPlainByte_of_hexValue? hd⟩

/-- An escape sequence is text. -/
theorem IsEscape.isText {escape : Bytes} (h : IsEscape escape) : Utf8.IsText escape := by
  induction h with
  | @letter e _ h =>
    have he : e.toNat < 0x80 := by
      unfold escapeValue? at h
      split_ifs at h with h₁ h₂ h₃ h₄ h₅ h₆ h₇ h₈ <;> subst_vars <;> decide
    apply Utf8.isText_of_ascii
    simp only [List.mem_cons, List.not_mem_nil, or_false, forall_eq_or_imp, forall_eq]
    exact ⟨by decide, he⟩
  | unit h =>
    obtain ⟨⟨ha, -⟩, ⟨hb, -⟩, ⟨hc, -⟩, hd, -⟩ := by
      simpa only [List.mem_cons, List.not_mem_nil, or_false, forall_eq_or_imp, forall_eq] using
        forall_of_codeUnit? h
    apply Utf8.isText_of_ascii
    simp only [List.mem_cons, List.not_mem_nil, or_false, forall_eq_or_imp, forall_eq]
    exact ⟨by decide, by decide, ha, hb, hc, hd⟩
  | pair _ _ ih ih' => exact ih.append ih'

/-- A string that is read is text, as far as what follows it is. -/
theorem isText_of_readString {input rest : Bytes} {s : Text} (h : readString input = .ok (s, rest))
    (hrest : Utf8.IsText rest) : Utf8.IsText input := by
  obtain ⟨⟨bytes, rest'⟩, hbytes, h⟩ := Result.bind_eq_ok.1 h
  dsimp only at h
  split at h
  · rename_i s' hdecode
    obtain ⟨rfl, rfl⟩ : s' = s ∧ rest' = rest := by simpa using h
    have hquote : Utf8.IsText ['"'.toUInt8] := Utf8.isText_encode ['"']
    have htext : Utf8.IsText bytes := Utf8.isText_iff.2 (by simp [hdecode])
    refine readStringBytes_induction (P := fun read input => Utf8.IsText (read.reverse ++ input)) ?_ ?_ ?_
      hbytes
    · rw [List.reverse_reverse]
      exact htext.append (hquote.append hrest)
    · intro read input b _ hread
      simpa using hread
    · intro read input escape c hescape hread
      rw [List.reverse_append, List.reverse_reverse, List.append_assoc] at hread
      obtain ⟨hfront, hinput⟩ := hread.of_append
      exact hfront.append (hescape.isText.append hinput)
  · cases h

/-- What is passed is text if the rest is. -/
theorem Passes.isText {depth : Nat} {input rest : Bytes} (h : Passes depth input rest)
    (hrest : Utf8.IsText rest) : Utf8.IsText input := by
  have hbyte : ∀ (b : UInt8) (bytes : Bytes), b.toNat < 0x80 → Utf8.IsText bytes → Utf8.IsText (b :: bytes) := by
    intro b bytes hb hbytes
    have hchar : Utf8.IsText [b] := Utf8.isText_of_ascii (by simpa using hb)
    exact hchar.append hbytes
  induction h with
  | none => exact hrest
  | byte _ hb rest => exact hbyte _ rest hb.1 hrest
  | sign => exact hbyte _ _ (by decide) hrest
  | string _ hread => exact hbyte _ _ (by decide) (isText_of_readString hread hrest)
  | @group _ b c _ _ hb hc _ ih =>
    have hopening : b.toNat < 0x80 := by rcases hb with rfl | rfl <;> decide
    have hclosing : c.toNat < 0x80 := by rcases hc with rfl | rfl <;> decide
    exact hbyte _ _ hopening (ih (hbyte _ _ hclosing hrest))
  | trans _ _ ih ih' => exact ih (ih' hrest)

/-- A document that is read is text, not only in its strings. -/
theorem isText_of_read {input : Bytes} {v : Json} (h : read input = .ok v) : Utf8.IsText input :=
  (passes_of_read h).isText (Utf8.isText_encode [])

/-! ## What is read is nested no deeper than values are read -/

/-- Where a byte stands: outside strings, in a string, or in a string behind a backslash. -/
inductive Place where
  | outside
  | inString
  | escaped
  deriving DecidableEq, Repr

/-- How many arrays and objects are open at once where a closing bracket stands or the bytes end, at the most,
if `level` of them are open to begin with. -/
def nesting : Place → Nat → Bytes → Nat
  | _, level, [] => level
  | .outside, level, b :: rest =>
    if b = '"'.toUInt8 then nesting .inString level rest
    else if IsOpening b then nesting .outside (level + 1) rest
    else if IsClosing b then max level (nesting .outside (level - 1) rest)
    else nesting .outside level rest
  | .inString, level, b :: rest =>
    if b = '"'.toUInt8 then nesting .outside level rest
    else if b = '\\'.toUInt8 then nesting .escaped level rest
    else nesting .inString level rest
  | .escaped, level, _ :: rest => nesting .inString level rest

section OneByte

variable {b : UInt8} (level : Nat) (rest : Bytes)

/-- A plain byte in a string opens and closes nothing. -/
theorem nesting_inString_of_isPlainByte (h : IsPlainByte b) :
    nesting .inString level (b :: rest) = nesting .inString level rest := by
  obtain ⟨hquote, hbackslash, -⟩ := h
  rw [nesting, if_neg hquote, if_neg hbackslash]

/-- A simple byte opens and closes nothing. -/
theorem nesting_of_isSimple (h : IsSimple b) :
    nesting .outside level (b :: rest) = nesting .outside level rest := by
  obtain ⟨-, hquote, -, hopening, hclosing⟩ := h
  rw [nesting, if_neg hquote, if_neg hopening, if_neg hclosing]

/-- An opening bracket goes a level deeper. -/
theorem nesting_of_isOpening (h : IsOpening b) :
    nesting .outside level (b :: rest) = nesting .outside (level + 1) rest := by
  have hquote : b ≠ '"'.toUInt8 := by rcases h with rfl | rfl <;> decide
  rw [nesting, if_neg hquote, if_pos h]

/-- A closing bracket goes back a level. -/
theorem nesting_of_isClosing (h : IsClosing b) :
    nesting .outside level (b :: rest) = max level (nesting .outside (level - 1) rest) := by
  have hother : b ≠ '"'.toUInt8 ∧ ¬ IsOpening b := by rcases h with rfl | rfl <;> decide
  rw [nesting, if_neg hother.1, if_neg hother.2, if_pos h]

end OneByte

/-- An escape sequence in a string opens and closes nothing. -/
theorem IsEscape.nesting_append {escape : Bytes} (h : IsEscape escape) (level : Nat) (rest : Bytes) :
    nesting .inString level (escape ++ rest) = nesting .inString level rest := by
  induction h generalizing rest with
  | letter => rfl
  | @unit a b c d _ h =>
    obtain ⟨⟨-, ha⟩, ⟨-, hb⟩, ⟨-, hc⟩, -, hd⟩ := by
      simpa only [List.mem_cons, List.not_mem_nil, or_false, forall_eq_or_imp, forall_eq] using
        forall_of_codeUnit? h
    show nesting .inString level (a :: b :: c :: d :: rest) = _
    rw [nesting_inString_of_isPlainByte _ _ ha, nesting_inString_of_isPlainByte _ _ hb,
      nesting_inString_of_isPlainByte _ _ hc, nesting_inString_of_isPlainByte _ _ hd]
  | pair _ _ ih ih' => rw [List.append_assoc, ih, ih']

/-- Behind a string the level is that in front of it. -/
theorem nesting_of_readString {input rest : Bytes} {s : Text} (h : readString input = .ok (s, rest))
    (level : Nat) : nesting .inString level input = nesting .outside level rest := by
  obtain ⟨⟨bytes, rest'⟩, hbytes, h⟩ := Result.bind_eq_ok.1 h
  dsimp only at h
  split at h
  · obtain ⟨-, rfl⟩ : _ ∧ rest' = rest := by simpa using h
    refine readStringBytes_induction
      (P := fun _ input => nesting .inString level input = nesting .outside level rest') ?_ ?_ ?_ hbytes
    · rfl
    · intro read input b hb hread
      rwa [nesting_inString_of_isPlainByte _ _ hb]
    · intro read input escape c hescape hread
      rwa [hescape.nesting_append]
  · cases h

/-- What is passed goes no deeper than the depth that is allowed. -/
theorem Passes.nesting_le {depth : Nat} {input rest : Bytes} (h : Passes depth input rest) (level : Nat) :
    nesting .outside level input ≤ max (level + depth) (nesting .outside level rest) := by
  induction h generalizing level with
  | none => exact Nat.le_max_right _ _
  | byte _ hb rest =>
    rw [nesting_of_isSimple level rest hb]
    exact Nat.le_max_right _ _
  | sign => exact Nat.le_max_right _ _
  | @string _ _ input _ hread =>
    show nesting .inString level input ≤ _
    rw [nesting_of_readString hread]
    exact Nat.le_max_right _ _
  | group hb hc _ ih =>
    have hinside := ih (level + 1)
    rw [nesting_of_isClosing _ _ hc, Nat.add_sub_cancel] at hinside
    rw [nesting_of_isOpening _ _ hb]
    omega
  | trans _ _ ih ih' =>
    have h := ih level
    have h' := ih' level
    omega

/-- A document that is read is nested no deeper than values are read. -/
theorem nesting_le_of_read {input : Bytes} {v : Json} (h : read input = .ok v) :
    nesting .outside 0 input ≤ maxDepth := by
  have hpasses := (passes_of_read h).nesting_le 0
  rw [nesting] at hpasses
  omega

/-! ## Blank documents -/

/-- A blank document is none that can be read. -/
theorem exists_error_of_blank {content : Bytes} (h : content.all isBlankByte = true) :
    ∃ e, read content = .error e := by
  have hvalue : ∃ stop, readValue maxDepth content = .error stop := by
    show ∃ stop, readValueWith _ content = .error stop
    rw [readValueWith]
    cases hskip : skipSpace content with
    | nil => exact ⟨_, rfl⟩
    | cons b rest =>
      -- Only the form feed is blank here and no blank between the parts of a document.
      have hspace : isSpace b = false := by
        have hhead := List.head?_dropWhile_not isSpace content
        rw [← skipSpace, hskip] at hhead
        exact hhead
      have hblank : isBlankByte b = true := by
        have hmem : b ∈ skipSpace content := hskip ▸ List.mem_cons_self
        exact List.all_eq_true.1 h b ((List.dropWhile_sublist _).subset hmem)
      obtain rfl : b = 0x0C := by
        simp only [isBlankByte, Bool.or_eq_true, beq_iff_eq] at hblank
        rcases hblank with (((rfl | rfl) | rfl) | hfeed) | rfl
        · cases hspace
        · cases hspace
        · cases hspace
        · exact hfeed
        · cases hspace
      exact ⟨_, rfl⟩
  obtain ⟨stop, hstop⟩ := hvalue
  have hdocument : readDocument content = .error stop := by
    rw [readDocument, hstop]
    rfl
  exact ⟨_, by rw [read, hdocument]; rfl⟩

/-! ## What a document of data holds -/

/-- A value as data: null counts as the object without members. -/
def orEmpty : Json → Json
  | .null => .empty
  | v => v

end Infill.Json

namespace Infill.Documents

/-- What a document of data holds: an empty object if it cannot be read. -/
def held (content : Bytes) : Json :=
  match Json.read content with
  | .ok v => v.orEmpty
  | .error _ => .empty

/-- A document that is read holds its value, or an empty object for null. -/
theorem held_of_read {content : Bytes} {v : Json} (h : Json.read content = .ok v) :
    held content = v.orEmpty := by
  rw [held, h]

/-- A document that is not read holds an empty object. -/
theorem held_of_error {content : Bytes} {e : Json.ReadError} (h : Json.read content = .error e) :
    held content = .empty := by
  rw [held, h]

/-- Data is what a document holds. -/
theorem result_dataOf {ε : Type} (path : Path) (content : Bytes) :
    (dataOf path content : Traced ε Json).result = .ok (held content) := by
  unfold dataOf
  split
  · rename_i hblank
    obtain ⟨e, he⟩ := Json.exists_error_of_blank hblank
    rw [held_of_error he]
    rfl
  · unfold held
    cases Json.read content with
    | ok v => cases v <;> rfl
    | error e => rfl

/-- Reading data gives what the document holds, if the document is read. -/
theorem result_readJson (documents : Documents) (path : Path) :
    (documents.readJson path).result = (documents.read path).map held := by
  unfold readJson
  rw [Traced.result_bind, Traced.result_ofExcept]
  cases documents.read path with
  | ok content => exact result_dataOf path content
  | error e => rfl

end Infill.Documents
