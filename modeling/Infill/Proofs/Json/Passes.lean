import Infill.Proofs.Result
import Infill.Json.Reader
import Mathlib.Tactic.SplitIfs

/-!
# What readers pass over

A reader passes over the bytes of what it takes: over bytes that mean something by themselves, over signs in
front of digits, over strings, and over arrays and objects from bracket to bracket (`Passes`).  Each reader is
followed once, through its branches, and a document that is read is passed over to its end (`passes_of_read`).
Whatever holds of bytes passed over holds of every document that can be read.
-/

set_option autoImplicit false

namespace Infill.Json

open Result (Gives)

/-- A byte that opens an array or object. -/
def IsOpening (b : UInt8) : Prop := b = '['.toUInt8 ∨ b = '\x7b'.toUInt8

/-- A byte that closes an array or object. -/
def IsClosing (b : UInt8) : Prop := b = ']'.toUInt8 ∨ b = '\x7d'.toUInt8

instance (b : UInt8) : Decidable (IsOpening b) := inferInstanceAs (Decidable (_ ∨ _))

instance (b : UInt8) : Decidable (IsClosing b) := inferInstanceAs (Decidable (_ ∨ _))

/-- A byte that means something by itself: an ASCII character, but no quote, no bracket and no hyphen. -/
def IsSimple (b : UInt8) : Prop :=
  b.toNat < 0x80 ∧ b ≠ '"'.toUInt8 ∧ b ≠ '-'.toUInt8 ∧ ¬ IsOpening b ∧ ¬ IsClosing b

instance (b : UInt8) : Decidable (IsSimple b) := inferInstanceAs (Decidable (_ ∧ _ ∧ _ ∧ _ ∧ _))

/-- The bytes begin with a digit. -/
def BeginsWithDigit (bytes : Bytes) : Prop := ∃ d rest, bytes = d :: rest ∧ isDigit d = true

/-- What is left of some bytes behind a part of a document in which arrays and objects are nested at most
`depth` deep. -/
inductive Passes : Nat → Bytes → Bytes → Prop where
  | none (depth : Nat) (rest : Bytes) : Passes depth rest rest
  | byte (depth : Nat) {b : UInt8} (h : IsSimple b) (rest : Bytes) : Passes depth (b :: rest) rest
  | sign (depth : Nat) {rest : Bytes} (h : BeginsWithDigit rest) : Passes depth ('-'.toUInt8 :: rest) rest
  | string (depth : Nat) {s : Text} {input rest : Bytes} (h : readString input = .ok (s, rest)) :
      Passes depth ('"'.toUInt8 :: input) rest
  | group {depth : Nat} {b c : UInt8} {input rest : Bytes} (hb : IsOpening b) (hc : IsClosing c)
      (h : Passes depth input (c :: rest)) : Passes (depth + 1) (b :: input) rest
  | trans {depth : Nat} {a b c : Bytes} (h : Passes depth a b) (h' : Passes depth b c) : Passes depth a c

/-- A reader passes over what it takes. -/
def Reader.PassesOver {α : Type} (reader : Reader α) (depth : Nat) : Prop :=
  ∀ input, Gives (fun r => Passes depth input r.2) (reader input)

/-- What is read behind a part of a document is read behind what stands in front of that part. -/
theorem Passes.then {α : Type} {depth : Nat} {input input' : Bytes} {x : Except Stop (α × Bytes)}
    (h : Passes depth input input') (hx : Gives (fun r => Passes depth input' r.2) x) :
    Gives (fun r => Passes depth input r.2) x :=
  fun r hr => .trans h (hx r hr)

/-! ## Blanks, words and numbers -/

section Simple

variable {depth : Nat}

/-- Simple bytes are passed. -/
theorem passes_dropWhile {p : UInt8 → Bool} (hp : ∀ b, p b = true → IsSimple b) (input : Bytes) :
    Passes depth input (input.dropWhile p) := by
  induction input with
  | nil => exact .none depth []
  | cons b input ih =>
    by_cases h : p b = true
    · rw [List.dropWhile_cons_of_pos h]
      exact .trans (.byte depth (hp b h) input) ih
    · rw [List.dropWhile_cons_of_neg h]
      exact .none depth _

/-- Space is simple. -/
theorem isSimple_of_isSpace (b : UInt8) (h : isSpace b = true) : IsSimple b := by
  simp only [isSpace, Bool.or_eq_true, beq_iff_eq] at h
  rcases h with ((rfl | rfl) | rfl) | rfl <;> decide

/-- Digits are simple. -/
theorem isSimple_of_isDigit (b : UInt8) (h : isDigit b = true) : IsSimple b := by
  have hrange : '0'.toUInt8.toNat ≤ b.toNat ∧ b.toNat ≤ '9'.toUInt8.toNat := by
    simpa [isDigit, UInt8.le_iff_toNat_le] using h
  have hvalue : 48 ≤ b.toNat ∧ b.toNat ≤ 57 := hrange
  have hother : ∀ c : UInt8, ¬ (48 ≤ c.toNat ∧ c.toNat ≤ 57) → b ≠ c := by
    rintro c hc rfl
    exact hc hvalue
  refine ⟨by omega, hother _ (by decide), hother _ (by decide), ?_, ?_⟩
  · exact not_or.2 ⟨hother _ (by decide), hother _ (by decide)⟩
  · exact not_or.2 ⟨hother _ (by decide), hother _ (by decide)⟩

/-- Space is passed. -/
theorem passes_skipSpace (input : Bytes) : Passes depth input (skipSpace input) :=
  passes_dropWhile isSimple_of_isSpace input

/-- The bytes of a word are passed. -/
theorem readWord_passes (word : Text) (h : word.all (fun c => IsSimple c.toUInt8) = true) (input : Bytes) :
    Gives (Passes depth input) (readWord word input) := by
  induction word generalizing input with
  | nil => exact .ok (.none depth input)
  | cons c word ih =>
    obtain ⟨hc, hword⟩ : IsSimple c.toUInt8 ∧ word.all (fun c => IsSimple c.toUInt8) = true := by
      simpa only [List.all_cons, Bool.and_eq_true, decide_eq_true_eq] using h
    cases input with
    | nil => exact .error _
    | cons b input =>
      rw [readWord]
      refine .branch (fun hb => ?_) fun _ => .error _
      intro rest hrest
      exact .trans (.byte depth (hb ▸ hc) input) (ih hword input rest hrest)

/-- An exponent is passed. -/
theorem readExponent_passes (x : Scientific) (input : Bytes) :
    Gives (fun r => Passes depth input r.2) (readExponent x input) := by
  unfold readExponent
  split
  rename_i down signless hsign
  -- A sign is passed over because a digit follows it.
  have hdigits : BeginsWithDigit signless → Passes depth input (signless.dropWhile isDigit) := by
    intro hbegins
    refine .trans ?_ (passes_dropWhile isSimple_of_isDigit signless)
    split at hsign
    · rename_i b rest
      split_ifs at hsign with hplus hminus
      · cases hsign
        exact .byte depth (hplus ▸ by decide) _
      · cases hsign
        exact hminus ▸ .sign depth hbegins
      · cases hsign
        exact .none depth _
    · cases hsign
      exact .none depth _
  split
  · exact .error _
  · rename_i b rest
    refine .branch (fun _ => .error _) fun hdigit => ?_
    replace hdigits := hdigits ⟨b, rest, rfl, by simpa using hdigit⟩
    dsimp only
    split
    · exact .bind fun d _ => .ok hdigits
    · exact .ite (.error _) (.ok hdigits)

/-- What follows the digits of a number is passed. -/
theorem readAfterDigits_passes (x : Scientific) (input : Bytes) :
    Gives (fun r => Passes depth input r.2) (readAfterDigits x input) := by
  unfold readAfterDigits
  split
  · rename_i b rest
    refine .branch (fun hb => ?_) fun _ => .bind fun d _ => .ok (.none depth _)
    have hsimple : IsSimple b := by rcases hb with rfl | rfl <;> decide
    exact (Passes.byte depth hsimple rest).then (readExponent_passes x rest)
  · exact .bind fun d _ => .ok (.none depth _)

/-- A fraction is passed. -/
theorem readFraction_passes (x : Scientific) (input : Bytes) :
    Gives (fun r => Passes depth input r.2) (readFraction x input) := by
  have hdigits : Passes depth input (input.dropWhile isDigit) := passes_dropWhile isSimple_of_isDigit input
  unfold readFraction
  dsimp only
  split
  · split
    · exact .error _
    · exact .error _
  · exact hdigits.then (readAfterDigits_passes _ _)

/-- A number without its sign is passed. -/
theorem readUnsigned_passes (negative : Bool) (input : Bytes) :
    Gives (fun r => Passes depth input r.2) (readUnsigned negative input) := by
  have hdigits : Passes depth input (input.dropWhile isDigit) := passes_dropWhile isSimple_of_isDigit input
  unfold readUnsigned
  split
  · exact .error _
  · refine .ite (.error _) (.ite (.error _) ?_)
    dsimp only
    refine hdigits.then ?_
    split
    · rename_i b tail hrest
      rw [hrest]
      refine .branch (fun hpoint => ?_) fun _ => .branch (fun hexponent => ?_) fun _ => ?_
      · exact (Passes.byte depth (hpoint ▸ by decide) tail).then (readFraction_passes _ _)
      · have hsimple : IsSimple b := by rcases hexponent with rfl | rfl <;> decide
        exact (Passes.byte depth hsimple tail).then (readExponent_passes _ _)
      · exact .ite (.bind fun n _ => .ok (.none depth _)) (readAfterDigits_passes _ _)
    · rename_i hrest
      rw [hrest]
      exact .ite (.bind fun n _ => .ok (.none depth _)) (readAfterDigits_passes _ _)

/-- A number without its sign begins with a digit. -/
theorem beginsWithDigit_of_readUnsigned (negative : Bool) (input : Bytes) :
    Gives (fun _ => BeginsWithDigit input) (readUnsigned negative input) := by
  unfold readUnsigned
  split
  · exact .error _
  · rename_i first rest
    refine .branch (fun _ => .error _) fun hdigit => ?_
    exact fun _ _ => ⟨first, rest, rfl, by simpa using hdigit⟩

/-- A number is passed, and something of it is there. -/
theorem readNumber_passesOver : Reader.PassesOver readNumber depth := by
  intro input
  unfold readNumber
  split
  · rename_i b rest
    refine .branch (fun hb => ?_) fun _ => readUnsigned_passes false _
    intro r hr
    have hsign : Passes depth (b :: rest) rest :=
      hb ▸ .sign depth (beginsWithDigit_of_readUnsigned true rest r hr)
    exact .trans hsign (readUnsigned_passes true rest r hr)
  · exact readUnsigned_passes false []

end Simple

/-! ## Values -/

/-- The bytes up to a closing bracket and with it are passed over. -/
def Closes (depth : Nat) (input rest : Bytes) : Prop := ∃ c, IsClosing c ∧ Passes depth input (c :: rest)

/-- One part is passed over, and then those behind it up to the closing bracket. -/
theorem closes_cons {α : Type} {depth : Nat} {input : Bytes} {x : Except Stop (α × Bytes)}
    {tail : Reader (List α)} (hx : Gives (fun r => Passes depth input r.2) x)
    (htail : ∀ input, Gives (fun r => Closes depth input r.2) (tail input)) :
    Gives (fun r => Closes depth input r.2)
      (x >>= fun v => tail v.2 >>= fun vs => .ok (v.1 :: vs.1, vs.2)) := by
  refine .bind fun v hv => .bind fun vs hvs => .ok ?_
  obtain ⟨c, hc, hrest⟩ := htail _ _ hvs
  exact ⟨c, hc, .trans (hx v hv) hrest⟩

section Nested

variable {item : Reader Json} {depth : Nat} (hitem : item.PassesOver depth)
include hitem

/-- The items of an array are passed over up to its closing bracket. -/
theorem readItems_closes (rounds : Nat) (first : Bool) (input : Bytes) :
    Gives (fun r => Closes depth input r.2) (readItems item rounds first input) := by
  induction rounds generalizing first input with
  | zero => exact .error _
  | succ rounds ih =>
    have hspace : Passes depth input (skipSpace input) := passes_skipSpace input
    rw [readItems]
    split
    · exact .error _
    · rename_i b rest hskip
      rw [hskip] at hspace
      refine .branch (fun hclose => .ok ⟨b, .inl hclose, hspace⟩) fun _ => ?_
      refine .ite (closes_cons (hspace.then (hitem _)) (ih false)) (.branch (fun hcomma => ?_) fun _ => .error _)
      have hbehind : Passes depth input (skipSpace rest) :=
        .trans (.trans hspace (.byte depth (hcomma ▸ by decide) rest)) (passes_skipSpace rest)
      split
      · exact .error _
      · rename_i c tail hskip'
        rw [hskip'] at hbehind
        exact .ite (.error _) (closes_cons (hbehind.then (hitem _)) (ih false))

/-- A member is passed over from behind its opening quote on. -/
theorem readMember_passes {input tail : Bytes} (hinput : Passes depth input ('"'.toUInt8 :: tail)) :
    Gives (fun r => Passes depth input r.2) (readMember item tail) := by
  refine .bind fun key hkey => ?_
  have hbehind : Passes depth input (skipSpace key.2) :=
    .trans (.trans hinput (.string depth hkey)) (passes_skipSpace key.2)
  dsimp only
  split
  · exact .error _
  · rename_i b rest hskip
    rw [hskip] at hbehind
    refine .branch (fun hcolon => ?_) fun _ => .error _
    have hvalue : Passes depth input rest := .trans hbehind (.byte depth (hcolon ▸ by decide) rest)
    exact .bind fun v hv => .ok (.trans hvalue (hitem _ _ hv))

/-- The members of an object are passed over up to its closing brace. -/
theorem readMembers_closes (rounds : Nat) (first : Bool) (input : Bytes) :
    Gives (fun r => Closes depth input r.2) (readMembers item rounds first input) := by
  induction rounds generalizing first input with
  | zero => exact .error _
  | succ rounds ih =>
    have hcons : ∀ tail, Passes depth input ('"'.toUInt8 :: tail) →
        Gives (fun r => Closes depth input r.2)
          (readMember item tail >>= fun m => readMembers item rounds false m.2 >>= fun ms =>
            .ok (m.1 :: ms.1, ms.2)) :=
      fun tail hinput => closes_cons (readMember_passes hitem hinput) (ih false)
    have hspace : Passes depth input (skipSpace input) := passes_skipSpace input
    rw [readMembers]
    split
    · exact .error _
    · rename_i b rest hskip
      rw [hskip] at hspace
      refine .branch (fun hclose => .ok ⟨b, .inr hclose, hspace⟩) fun _ => .ite ?_ ?_
      · exact .branch (fun hquote => hcons _ (hquote ▸ hspace)) fun _ => .error _
      · refine .branch (fun hcomma => ?_) fun _ => .error _
        have hbehind : Passes depth input (skipSpace rest) :=
          .trans (.trans hspace (.byte depth (hcomma ▸ by decide) rest)) (passes_skipSpace rest)
        split
        · exact .error _
        · rename_i c tail hskip'
          rw [hskip'] at hbehind
          exact .branch (fun hquote => hcons _ (hquote ▸ hbehind)) fun _ => .ite (.error _) (.error _)

end Nested

/-- A value is passed over, if the values inside it are, one level further down. -/
theorem readValueWith_passesOver {nested : Option (Reader Json)} {depth : Nat}
    (hnested : ∀ item ∈ nested, ∃ k, depth = k + 1 ∧ item.PassesOver k) :
    (readValueWith nested).PassesOver depth := by
  intro input
  have hspace : Passes depth input (skipSpace input) := passes_skipSpace input
  rw [readValueWith]
  split
  · exact .error _
  · rename_i b rest hskip
    rw [hskip] at hspace
    have hword : ∀ (c : Char) (word : Text) (v : Json), b = c.toUInt8 → IsSimple c.toUInt8 →
        word.all (fun c => IsSimple c.toUInt8) = true →
        Gives (fun r : Json × Bytes => Passes depth input r.2)
          (readWord word rest >>= fun rest => .ok (v, rest)) := by
      intro c word v hb hc hword
      have hbehind : Passes depth input rest := .trans hspace (.byte depth (hb ▸ hc) rest)
      exact .bind fun r hr => .ok (.trans hbehind (readWord_passes word hword rest r hr))
    refine .branch (fun hb => hword _ _ _ hb (by decide) (by decide)) fun _ => ?_
    refine .branch (fun hb => hword _ _ _ hb (by decide) (by decide)) fun _ => ?_
    refine .branch (fun hb => hword _ _ _ hb (by decide) (by decide)) fun _ => ?_
    refine .branch (fun _ => ?_) fun _ => .branch (fun hb => ?_) fun _ => .branch (fun hb => ?_) fun _ =>
      .branch (fun hb => ?_) fun _ => .error _
    · exact .bind fun n hn => .ok (.trans hspace (readNumber_passesOver _ _ hn))
    · exact .bind fun s hs => .ok (.trans (hb ▸ hspace) (.string depth hs))
    · split
      · exact .error _
      · rename_i item
        obtain ⟨k, rfl, hitem⟩ := hnested item rfl
        refine .bind fun items hitems => .ok ?_
        obtain ⟨c, hc, hinside⟩ := readItems_closes hitem _ _ _ _ hitems
        exact .trans hspace (.group (.inl hb) hc hinside)
    · split
      · exact .error _
      · rename_i item
        obtain ⟨k, rfl, hitem⟩ := hnested item rfl
        refine .bind fun members hmembers => .ok ?_
        obtain ⟨c, hc, hinside⟩ := readMembers_closes hitem _ _ _ _ hmembers
        exact .trans hspace (.group (.inr hb) hc hinside)

/-- Values are passed over, however deep they may be nested. -/
theorem readValue_passesOver (depth : Nat) : (readValue depth).PassesOver depth := by
  induction depth with
  | zero => exact readValueWith_passesOver (by simp)
  | succ depth ih => exact readValueWith_passesOver (by simpa using ih)

/-- A document that is read is passed over to its end. -/
theorem passes_of_read {input : Bytes} {v : Json} (h : read input = .ok v) : Passes maxDepth input [] := by
  have hdocument : readDocument input = .ok v := Result.mapError_eq_ok.1 h
  obtain ⟨r, hr, h⟩ := Result.bind_eq_ok.1 hdocument
  have hvalue := readValue_passesOver maxDepth _ _ hr
  have hspace : Passes maxDepth r.2 (skipSpace r.2) := passes_skipSpace r.2
  dsimp only at h
  split at h
  · rename_i hskip
    exact .trans hvalue (hskip ▸ hspace)
  · cases h

end Infill.Json
