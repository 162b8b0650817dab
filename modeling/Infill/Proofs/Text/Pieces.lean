import Infill.Proofs.Text.FirstOccurrence
import Infill.Text.Blank

/-!
# Pieces between occurrences of a text

A text is cut at the first occurrence of a needle exactly if the needle does not occur any earlier, not even
with an end that overlaps the place of the cut (`cutAtFirst?_eq_some_iff`).  The pieces between occurrences
that are found one behind the other, joined by the needle, are the text again (`joinWith_pieces`).

Trimming takes blanks off both ends and nothing else (`trim_append_of_blank`).
-/

set_option autoImplicit false

namespace Infill.Text

/-! ## The first occurrence -/

/-- A text is cut wherever the other one stands in it. -/
theorem cutAtFirst?_eq_none_iff {needle t : Text} : cutAtFirst? needle t = none ↔ ¬ needle <:+: t := by
  constructor
  · rintro h ⟨front, back, rfl⟩
    obtain ⟨before, rest, hcut, -⟩ := exists_cutAtFirst?_append needle front back
    rw [List.append_assoc, hcut] at h
    cases h
  · intro h
    cases hcut : cutAtFirst? needle t with
    | none => rfl
    | some cut => exact absurd ⟨cut.1, cut.2, (eq_append_of_cutAtFirst? hcut).symm⟩ h

/-- A text contains what stands anywhere in it. -/
theorem contains_iff_infix {t needle : Text} : contains t needle = true ↔ needle <:+: t := by
  rw [contains, Option.isSome_iff_ne_none, Ne, cutAtFirst?_eq_none_iff, Classical.not_not]

/-- A text is cut around an occurrence of the needle before which the needle does not begin. -/
theorem cutAtFirst?_eq_some_iff {needle : Text} (hneedle : needle ≠ []) {t before rest : Text} :
    cutAtFirst? needle t = some (before, rest) ↔
      t = before ++ needle ++ rest ∧ ¬ needle <:+: before ++ needle.dropLast := by
  obtain ⟨start, last, rfl⟩ : ∃ start last, needle = start ++ [last] :=
    ⟨_, _, (List.dropLast_concat_getLast hneedle).symm⟩
  rw [List.dropLast_concat]
  constructor
  · intro h
    have ht := eq_append_of_cutAtFirst? h
    refine ⟨ht, ?_⟩
    rintro ⟨front, back, hearlier⟩
    -- An earlier occurrence would have been found first.
    have hsplit : t = front ++ (start ++ [last] ++ (back ++ [last] ++ rest)) := by
      calc t = (before ++ start) ++ ([last] ++ rest) := by simp [ht]
        _ = front ++ (start ++ [last] ++ (back ++ [last] ++ rest)) := by simp [← hearlier]
    obtain ⟨before', rest', hcut, hle, -⟩ :=
      exists_cutAtFirst?_append (start ++ [last]) front (back ++ [last] ++ rest)
    rw [← hsplit, h] at hcut
    obtain ⟨rfl, rfl⟩ : before = before' ∧ rest = rest' := by simpa using hcut
    have hlength := congrArg List.length hearlier
    simp only [List.length_append, List.length_singleton] at hlength
    omega
  · rintro ⟨ht, hfirst⟩
    obtain ⟨before', rest', hcut, hle, -⟩ := exists_cutAtFirst?_append (start ++ [last]) before rest
    rw [← List.append_assoc, ← ht] at hcut
    have ht' := eq_append_of_cutAtFirst? hcut
    by_cases hlength : before'.length = before.length
    · have heq : before' ++ (start ++ [last] ++ rest') = before ++ (start ++ [last] ++ rest) := by
        simpa using ht'.symm.trans ht
      obtain ⟨rfl, hrest⟩ := List.append_inj heq hlength
      obtain rfl := List.append_cancel_left hrest
      exact hcut
    · -- The one that is found would end before the last character of the one that is known.
      have hfound : before' ++ (start ++ [last]) <+: t := ⟨rest', ht'.symm⟩
      have hknown : before ++ start <+: t := ⟨[last] ++ rest, by simp [ht]⟩
      have hshorter : (before' ++ (start ++ [last])).length ≤ (before ++ start).length := by
        simp only [List.length_append, List.length_singleton]
        omega
      obtain ⟨back, hback⟩ := List.prefix_of_prefix_length_le hfound hknown hshorter
      exact absurd ⟨before', back, hback⟩ hfirst

/-! ## All pieces -/

section Pieces

variable {needle t before rest : Text} {hneedle : needle ≠ []}

/-- A text that is not cut is its only piece. -/
theorem pieces_of_none (h : cutAtFirst? needle t = none) : pieces needle hneedle t = [t] := by
  rw [pieces]
  split
  · rfl
  · rename_i before rest hcut
    rw [h] at hcut
    cases hcut

/-- The pieces of a text are what stands before the first cut and those of the rest. -/
theorem pieces_of_some (h : cutAtFirst? needle t = some (before, rest)) :
    pieces needle hneedle t = before :: pieces needle hneedle rest := by
  rw [pieces]
  split
  · rename_i hcut
    rw [h] at hcut
    cases hcut
  · rename_i before' rest' hcut
    obtain ⟨rfl, rfl⟩ : before = before' ∧ rest = rest' := by simpa using h.symm.trans hcut
    rfl

/-- Every text has a piece. -/
theorem pieces_ne_nil (t : Text) : pieces needle hneedle t ≠ [] := by
  cases h : cutAtFirst? needle t with
  | none =>
    rw [pieces_of_none h]
    exact List.cons_ne_nil _ _
  | some cut =>
    rw [pieces_of_some h]
    exact List.cons_ne_nil _ _

/-- The pieces, joined by what stands between them, are the text. -/
theorem joinWith_pieces (needle : Text) (hneedle : needle ≠ []) (t : Text) :
    joinWith needle (pieces needle hneedle t) = t := by
  fun_induction pieces needle hneedle t with
  | case1 t _ => exact List.intercalate_singleton
  | case2 t before rest h ih =>
    obtain ⟨piece, more, hmore⟩ := List.exists_cons_of_ne_nil (pieces_ne_nil rest)
    rw [hmore] at ih ⊢
    rw [joinWith, List.intercalate_cons_cons, ← joinWith, ih]
    exact (eq_append_of_cutAtFirst? h).symm

end Pieces

/-! ## Trimming -/

/-- Blanks in front are taken away. -/
theorem trimStart_append_of_blank {front : Text} (h : ∀ c ∈ front, isBlank c = true) (t : Text) :
    trimStart (front ++ t) = trimStart t :=
  List.dropWhile_append_of_pos h

/-- Blanks are trimmed at the end only behind the last character that is none. -/
theorem trimEnd_append {c : Char} (hc : isBlank c = false) (s t : Text) :
    trimEnd (s ++ [c] ++ t) = s ++ [c] ++ trimEnd t := by
  have hreverse : (s ++ [c] ++ t).reverse = t.reverse ++ c :: s.reverse := by simp
  unfold trimEnd
  rw [hreverse, List.dropWhile_append]
  split
  · rename_i hblank
    rw [List.dropWhile_cons_of_neg (by simp [hc]), List.isEmpty_iff.1 hblank]
    simp
  · simp

/-- Between blanks in front and a character that is none, and behind it, trimming only takes what it has to. -/
theorem trim_append_of_blank {front : Text} (hfront : ∀ c ∈ front, isBlank c = true) {first last : Char}
    (hfirst : isBlank first = false) (hlast : isBlank last = false) (s t : Text) :
    trim (front ++ (first :: s ++ [last] ++ t)) = first :: s ++ [last] ++ trimEnd t := by
  unfold trim
  rw [trimStart_append_of_blank hfront, List.cons_append, List.cons_append, trimStart,
    List.dropWhile_cons_of_neg (by simp [hfirst])]
  exact trimEnd_append hlast (first :: s) t

end Infill.Text
