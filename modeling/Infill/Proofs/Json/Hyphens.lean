import Infill.Proofs.Json.Readable

/-!
# Hyphens in a document

Outside strings a hyphen is a sign, and a digit follows it.  This holds of all that readers pass over, and so
does it that strings are closed (`Passes.signed`).  Hence a document that is read does not end in a hyphen
(`not_read_append_hyphen`), two hyphens in a row stand in a string of it (`along_ne_outside_of_read`), and
what stands in front of them is no document (`not_read_of_read_append`).
-/

set_option autoImplicit false

namespace Infill.Json

/-- The place behind a byte. -/
def Place.behind (p : Place) (b : UInt8) : Place :=
  match p with
  | .outside => if b = '"'.toUInt8 then .inString else .outside
  | .inString => if b = '"'.toUInt8 then .outside else if b = '\\'.toUInt8 then .escaped else .inString
  | .escaped => .inString

/-- The place behind some bytes. -/
def Place.along (p : Place) (bytes : Bytes) : Place := bytes.foldl Place.behind p

/-- Read from a place on, bytes end outside strings, and outside strings a digit follows every hyphen. -/
inductive Signed : Place → Bytes → Prop where
  | nil : Signed .outside []
  | cons {p : Place} {b : UInt8} {rest : Bytes}
      (hsign : p = .outside → b = '-'.toUInt8 → BeginsWithDigit rest) (h : Signed (p.behind b) rest) :
      Signed p (b :: rest)

/-- What has been read does not count for what follows, but for the place it leads to. -/
theorem Signed.of_append {p : Place} {front rest : Bytes} (h : Signed p (front ++ rest)) :
    Signed (p.along front) rest := by
  induction front generalizing p with
  | nil => exact h
  | cons b front ih =>
    cases h with
    | cons _ h => exact ih h

/-- Bytes with signs only lead out of strings. -/
theorem Signed.along_eq {p : Place} {bytes : Bytes} (h : Signed p bytes) : p.along bytes = .outside := by
  induction h with
  | nil => rfl
  | cons _ _ ih => exact ih

/-- A hyphen outside strings is followed by a digit, and in particular by no hyphen. -/
theorem Signed.not_hyphens {rest : Bytes} : ¬ Signed .outside ('-'.toUInt8 :: '-'.toUInt8 :: rest) := by
  rintro (_ | ⟨hsign, -⟩)
  obtain ⟨d, rest', heq, hdigit⟩ := hsign rfl rfl
  obtain ⟨rfl, -⟩ := List.cons.inj heq
  exact absurd hdigit (by decide)

/-- No bytes with signs only end in a hyphen. -/
theorem Signed.not_hyphen {p : Place} : ¬ Signed p ['-'.toUInt8] := by
  rintro (_ | ⟨hsign, h⟩)
  cases p with
  | outside =>
    obtain ⟨d, rest, heq, -⟩ := hsign rfl rfl
    cases heq
  | inString => cases h
  | escaped => cases h

/-! ## Strings -/

/-- In a string bytes that lead on in the string do not count. -/
theorem Signed.cons_of_ne_outside {p : Place} {b : UInt8} {rest : Bytes} (hp : p ≠ .outside)
    (h : Signed (p.behind b) rest) : Signed p (b :: rest) :=
  .cons (fun houtside => absurd houtside hp) h

/-- A plain byte stays in the string. -/
theorem behind_inString_of_isPlainByte {b : UInt8} (h : IsPlainByte b) :
    Place.inString.behind b = .inString := by
  obtain ⟨hquote, hbackslash, -⟩ := h
  rw [Place.behind, if_neg hquote, if_neg hbackslash]

/-- In front of a string goes a plain byte. -/
theorem Signed.plain {b : UInt8} {rest : Bytes} (hb : IsPlainByte b) (h : Signed .inString rest) :
    Signed .inString (b :: rest) :=
  .cons_of_ne_outside (by decide) (by rwa [behind_inString_of_isPlainByte hb])

/-- In front of a string goes an escape sequence. -/
theorem IsEscape.signed_append {escape : Bytes} (h : IsEscape escape) {rest : Bytes}
    (hrest : Signed .inString rest) : Signed .inString (escape ++ rest) := by
  have hbackslash : ∀ {e : UInt8} {tail : Bytes}, Signed .inString tail →
      Signed .inString ('\\'.toUInt8 :: e :: tail) :=
    fun htail => .cons_of_ne_outside (by decide) (.cons_of_ne_outside (by decide) htail)
  induction h generalizing rest with
  | letter => exact hbackslash hrest
  | unit h =>
    obtain ⟨⟨-, ha⟩, ⟨-, hb⟩, ⟨-, hc⟩, -, hd⟩ := by
      simpa only [List.mem_cons, List.not_mem_nil, or_false, forall_eq_or_imp, forall_eq] using
        forall_of_codeUnit? h
    exact hbackslash (.plain ha (.plain hb (.plain hc (.plain hd hrest))))
  | pair _ _ ih ih' =>
    rw [List.append_assoc]
    exact ih (ih' hrest)

/-- In a string that is read every hyphen may stand. -/
theorem signed_of_readString {input rest : Bytes} {s : Text} (h : readString input = .ok (s, rest))
    (hrest : Signed .outside rest) : Signed .inString input := by
  obtain ⟨⟨bytes, rest'⟩, hbytes, h⟩ := Result.bind_eq_ok.1 h
  dsimp only at h
  split at h
  · obtain ⟨-, rfl⟩ : _ ∧ rest' = rest := by simpa using h
    refine readStringBytes_induction (P := fun _ input => Signed .inString input) ?_ ?_ ?_ hbytes
    · exact .cons_of_ne_outside (by decide) hrest
    · exact fun read input b hb hread => .plain hb hread
    · exact fun read input escape c hescape hread => hescape.signed_append hread
  · cases h

/-! ## Documents -/

/-- Outside of strings goes every other byte. -/
theorem Signed.outside_cons {b : UInt8} {rest : Bytes} (hquote : b ≠ '"'.toUInt8) (hhyphen : b ≠ '-'.toUInt8)
    (h : Signed .outside rest) : Signed .outside (b :: rest) := by
  refine .cons (fun _ hb => absurd hb hhyphen) ?_
  rwa [Place.behind, if_neg hquote]

/-- What is passed over has signs only, if what is left has. -/
theorem Passes.signed {depth : Nat} {input rest : Bytes} (h : Passes depth input rest)
    (hrest : Signed .outside rest) : Signed .outside input := by
  induction h with
  | none => exact hrest
  | byte _ hb rest => exact hrest.outside_cons hb.2.1 hb.2.2.1
  | sign _ hdigit => exact .cons (fun _ _ => hdigit) hrest
  | string _ hread => exact .cons (fun _ hquote => absurd hquote (by decide)) (signed_of_readString hread hrest)
  | @group _ b c _ _ hb hc _ ih =>
    have hopening : b ≠ '"'.toUInt8 ∧ b ≠ '-'.toUInt8 := by rcases hb with rfl | rfl <;> decide
    have hclosing : c ≠ '"'.toUInt8 ∧ c ≠ '-'.toUInt8 := by rcases hc with rfl | rfl <;> decide
    exact (ih (hrest.outside_cons hclosing.1 hclosing.2)).outside_cons hopening.1 hopening.2
  | trans _ _ ih ih' => exact ih (ih' hrest)

/-- In a document that is read each hyphen outside of strings has a digit behind it. -/
theorem signed_of_read {input : Bytes} {v : Json} (h : read input = .ok v) : Signed .outside input :=
  (passes_of_read h).signed .nil

/-- No document ends in a hyphen. -/
theorem not_read_append_hyphen (front : Bytes) (v : Json) : read (front ++ ['-'.toUInt8]) ≠ .ok v :=
  fun h => (signed_of_read h).of_append.not_hyphen

/-- In a document two hyphens in a row stand in a string. -/
theorem along_ne_outside_of_read {front rest : Bytes} {v : Json}
    (h : read (front ++ '-'.toUInt8 :: '-'.toUInt8 :: rest) = .ok v) : Place.along .outside front ≠ .outside := by
  intro houtside
  have hsigned := (signed_of_read h).of_append
  rw [houtside] at hsigned
  exact hsigned.not_hyphens

/-- What stands in a document in front of two hyphens in a row is no document: a string is open there. -/
theorem not_read_of_read_append {front rest : Bytes} {v : Json}
    (h : read (front ++ '-'.toUInt8 :: '-'.toUInt8 :: rest) = .ok v) (w : Json) : read front ≠ .ok w :=
  fun hfront => along_ne_outside_of_read h (signed_of_read hfront).along_eq

end Infill.Json
