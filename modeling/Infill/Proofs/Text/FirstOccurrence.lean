import Infill.Text.Basic

/-!
# The first occurrence of a text

`Text.cutAtFirst?` cuts a text around the first place where a needle occurs.  Two things are said of
that place.  Wherever else the needle is known to occur, the first place is not behind it
(`exists_cutAtFirst?_append`), so that everything behind a known occurrence survives a replacement.
And where the needle cannot begin anywhere inside the text in front of a known occurrence, the first
place is that occurrence (`replaceFirst_of_avoids`).

`Text.Avoids needle t` says that the needle does not begin inside `t`, whatever follows `t`.  Texts
that avoid a needle may be put together in any number, which is what a filled template is made of.
-/

set_option autoImplicit false

namespace Infill.Text

/-- Nothing follows a text that is not at the front. -/
theorem after?_eq_none_iff {start t : Text} : after? start t = none ↔ ¬ start <+: t := by
  rw [Option.eq_none_iff_forall_ne_some]
  constructor
  · rintro h ⟨rest, rfl⟩
    exact h rest (after?_eq_some_iff.2 rfl)
  · intro h rest hrest
    exact h ⟨rest, (after?_eq_some_iff.1 hrest).symm⟩

/-- What follows a text without separators is found in front of a separator, if it is found at all. -/
theorem after?_append {separator : Char} {start : Text} (h : separator ∉ start) (a b : Text) :
    after? start (a ++ separator :: b) = (after? start a).map (· ++ separator :: b) := by
  induction start generalizing a with
  | nil => rfl
  | cons s start ih =>
    obtain ⟨hs, hstart⟩ := List.ne_and_not_mem_of_not_mem_cons h
    cases a with
    | nil => simp [after?, hs.symm]
    | cons c a =>
      by_cases hc : s = c
      · simp [after?, hc, ih hstart]
      · simp [after?, hc]

/-- A needle at the very front is the first occurrence. -/
theorem cutAtFirst?_append_self (needle rest : Text) :
    cutAtFirst? needle (needle ++ rest) = some ([], rest) := by
  have hafter : after? needle (needle ++ rest) = some rest := after?_eq_some_iff.2 rfl
  cases ht : needle ++ rest with
  | nil =>
    rw [ht] at hafter
    simp [cutAtFirst?, hafter]
  | cons c t =>
    rw [ht] at hafter
    simp [cutAtFirst?, hafter]

/-- Where the needle is not at the front, it is looked for behind the first character. -/
theorem cutAtFirst?_cons {needle : Text} {c : Char} {t : Text} (h : ¬ needle <+: c :: t) :
    cutAtFirst? needle (c :: t) =
      (cutAtFirst? needle t).map fun (before, rest) => (c :: before, rest) := by
  simp [cutAtFirst?, after?_eq_none_iff.2 h]

/-- A needle that occurs is found, and found no later than where it is known to occur. -/
theorem exists_cutAtFirst?_append (needle front back : Text) :
    ∃ before rest, cutAtFirst? needle (front ++ (needle ++ back)) = some (before, rest) ∧
      before.length ≤ front.length ∧ back <:+ rest := by
  induction front with
  | nil => exact ⟨[], back, cutAtFirst?_append_self needle back, Nat.le_refl _, List.suffix_rfl⟩
  | cons c front ih =>
    by_cases hp : needle <+: c :: (front ++ (needle ++ back))
    · obtain ⟨rest, hrest⟩ := hp
      refine ⟨[], rest, ?_, Nat.zero_le _, ?_⟩
      · rw [List.cons_append, ← hrest, cutAtFirst?_append_self]
      · -- Both are behind an occurrence of the needle, and the one found is longer.
        have hback : back <:+ needle ++ rest := by
          rw [hrest]
          exact ⟨c :: (front ++ needle), by simp⟩
        have hrestSuffix : rest <:+ needle ++ rest := List.suffix_append needle rest
        have hlen := congrArg List.length hrest
        simp only [List.length_append, List.length_cons] at hlen
        exact List.suffix_of_suffix_length_le hback hrestSuffix (by omega)
    · obtain ⟨before, rest, hcut, hle, hsuffix⟩ := ih
      refine ⟨c :: before, rest, ?_, by simpa using hle, hsuffix⟩
      rw [List.cons_append, cutAtFirst?_cons hp, hcut]
      rfl

/-! ## Texts in which a needle does not begin -/

/-- The needle does not begin inside `t`, whatever follows `t`. -/
def Avoids (needle t : Text) : Prop :=
  ∀ inner, inner ≠ [] → inner <:+ t → ∀ next, ¬ needle <+: inner ++ next

/-- Nothing begins inside the empty text. -/
theorem avoids_nil (needle : Text) : Avoids needle [] := by
  intro inner hne hsuffix
  exact absurd (List.suffix_nil.1 hsuffix) hne

/-- A needle that begins in neither of two texts does not begin in the two together. -/
theorem Avoids.append {needle a b : Text} (ha : Avoids needle a) (hb : Avoids needle b) :
    Avoids needle (a ++ b) := by
  intro inner hne hsuffix next
  obtain ⟨skipped, hskipped⟩ := hsuffix
  rcases List.append_eq_append_iff.1 hskipped with ⟨in_a, h, rfl⟩ | ⟨in_b, h, rfl⟩
  · by_cases hnil : in_a = []
    · subst hnil
      exact hb b (by simpa using hne) List.suffix_rfl next
    · rw [List.append_assoc]
      exact ha in_a hnil ⟨skipped, h.symm⟩ (b ++ next)
  · exact hb inner hne ⟨in_b, rfl⟩ next

/-- A needle does not begin in a text without its first character. -/
theorem avoids_of_not_mem {c : Char} {needle t : Text} (h : c ∉ t) : Avoids (c :: needle) t := by
  intro inner hne hsuffix next hp
  cases inner with
  | nil => exact hne rfl
  | cons x inner =>
    have hx : c = x := (List.cons_prefix_cons.1 hp).1
    exact h (hsuffix.subset (by simp [hx]))

/-- What stands in front of a needle and avoids it stands in front of its first occurrence. -/
theorem cutAtFirst?_of_avoids {needle front : Text} (h : Avoids needle front) (back : Text) :
    cutAtFirst? needle (front ++ (needle ++ back)) = some (front, back) := by
  induction front with
  | nil => exact cutAtFirst?_append_self needle back
  | cons c front ih =>
    have hnot : ¬ needle <+: c :: (front ++ (needle ++ back)) :=
      h (c :: front) (by simp) List.suffix_rfl (needle ++ back)
    have hfront : Avoids needle front := by
      intro inner hne hsuffix
      exact h inner hne (hsuffix.trans (List.suffix_cons c front))
    rw [List.cons_append, cutAtFirst?_cons hnot, ih hfront]
    rfl

/-- The replaced occurrence is the one behind a text that avoids the needle. -/
theorem replaceFirst_of_avoids {needle front : Text} (h : Avoids needle front) (value back : Text) :
    replaceFirst needle value (front ++ (needle ++ back)) = front ++ (value ++ back) := by
  simp [replaceFirst, cutAtFirst?_of_avoids h back]

end Infill.Text
