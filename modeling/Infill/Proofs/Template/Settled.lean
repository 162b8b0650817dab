import Infill.Proofs.Template.Filling

/-!
# Filled templates hold no placeholder

Filling takes placeholders out and so brings texts together that stood apart: gaps, values, and the tail
of the template.  With an opening delimiter that is a run of one character, and values without that
character, none of the seams gives rise to a new placeholder.  No reference begins in a gap or in a value,
whatever follows it, and none begins in the tail because the template has none there
(`LeftmostShortest.not_beginsAt_filled`).  A text in which no reference begins is one in which a scan
finds nothing, and such a text is filled with itself.
-/

set_option autoImplicit false

namespace Infill.Template

/-! ## Texts without placeholders -/

/-- A scan finds nothing where no reference begins. -/
theorem scan_eq_nil_of_not_beginsAt {d : Delimiters} {t : Text} (hfits : d.fits = true)
    (hd : d.opening ≠ [] ∨ d.closing ≠ []) (hclear : ∀ k ≤ t.length, ¬ BeginsAt d t k) :
    scan t d = .ok [] := by
  have hempty : LeftmostShortest d t ⟨[], t⟩ := leftmostShortest_nil_iff.2 ⟨rfl, hclear⟩
  have hscanned : Cut.scanned d t = ⟨[], t⟩ := (leftmostShortest_scanned hd t).unique hempty
  refine Cut.scan_eq_ok_iff.2 ⟨hfits, ?_⟩
  rw [hscanned]
  rfl

/-- A text in which a scan finds nothing is filled with itself. -/
theorem result_render_of_scan_eq_nil {d : Delimiters} {t : Text} (h : scan t d = .ok [])
    (context : Json) : (render t context d).result = .ok t := by
  obtain ⟨hfits, hnone⟩ := Cut.scan_eq_ok_iff.1 h
  rw [Cut.result_render context hfits, ← hnone]
  rfl

/-- In front of a text that is clear of references, a text that every reference avoids is clear too. -/
theorem not_beginsAt_append {d : Delimiters} {front back : Text}
    (hfront : ∀ r, IsReference d r → Text.Avoids r front)
    (hback : ∀ k ≤ back.length, ¬ BeginsAt d back k) :
    ∀ k ≤ (front ++ back).length, ¬ BeginsAt d (front ++ back) k := by
  intro k hk
  by_cases hlt : k < front.length
  · rintro ⟨r, hr, hp⟩
    have hne : front.drop k ≠ [] := by
      rw [Ne, List.drop_eq_nil_iff]
      omega
    apply hfront r hr (front.drop k) hne (List.drop_suffix k front) back
    rwa [List.drop_append_of_le_length (by omega)] at hp
  · obtain ⟨j, rfl⟩ := Nat.exists_eq_add_of_le (Nat.not_lt.1 hlt)
    rw [beginsAt_append_left]
    apply hback
    rw [List.length_append] at hk
    omega

/-! ## The filled cut -/

/-- Filling a leftmost, shortest cut with values that hold no opening delimiter leaves no place where a
reference begins. -/
theorem LeftmostShortest.not_beginsAt_filled {d : Delimiters} {c : Char} {k : Nat}
    (hopen : d.opening = List.replicate k c) (hk : 1 ≤ k) (hc : c ≠ '\n') (hclose : '\n' ∉ d.closing)
    (context : Json) {t tail : Text} {pieces : List Piece}
    (hcut : LeftmostShortest d t ⟨pieces, tail⟩)
    (hvalues : ∀ p ∈ pieces, c ∉ valueOf context p.placeholder) :
    ∀ n ≤ (Cut.filled context ⟨pieces, tail⟩).length,
      ¬ BeginsAt d (Cut.filled context ⟨pieces, tail⟩) n := by
  induction pieces generalizing t with
  | nil =>
    obtain ⟨rfl, hclear⟩ := leftmostShortest_nil_iff.1 hcut
    exact hclear
  | cons p pieces ih =>
    obtain ⟨rest, hfirst, hrest⟩ := leftmostShortest_cons_iff.1 hcut
    have hback := ih hrest fun q hq => hvalues q (List.mem_cons_of_mem p hq)
    have hfront : ∀ r, IsReference d r →
        Text.Avoids r (p.gap ++ valueOf context p.placeholder) := by
      intro r hr
      have hgap : Text.Avoids r p.gap := hfirst.avoids_gap hopen hc hclose hr
      exact hgap.append (hr.avoids hopen hk (hvalues p List.mem_cons_self))
    rw [Cut.filled_cons, ← List.append_assoc]
    exact not_beginsAt_append hfront hback

/-- With an opening delimiter that is a run of one character other than a line break, a closing one
without line breaks, and values that do not hold the character, a filled template holds no placeholder,
so that filling it again, with whatever data, changes nothing. -/
theorem render_leaves_no_placeholder {d : Delimiters} {c : Char} {k : Nat}
    (hopen : d.opening = List.replicate k c) (hk : 1 ≤ k) (hc : c ≠ '\n')
    (hclose : '\n' ∉ d.closing) {t : Text} {placeholders : List Placeholder}
    (hscan : scan t d = .ok placeholders) (context : Json)
    (hvalues : ∀ p ∈ placeholders, c ∉ valueOf context p) :
    ∃ output, (render t context d).result = .ok output ∧ scan output d = .ok [] ∧
      ∀ other, (render output other d).result = .ok output := by
  obtain ⟨hfits, rfl⟩ := Cut.scan_eq_ok_iff.1 hscan
  have hne : d.opening ≠ [] := by
    rw [hopen, Ne, List.replicate_eq_nil_iff]
    omega
  have hcut := leftmostShortest_scanned (.inl hne) t
  have hpieces : ∀ p ∈ (Cut.scanned d t).pieces, c ∉ valueOf context p.placeholder :=
    fun p hp => hvalues p.placeholder (List.mem_map_of_mem hp)
  have hrun := fillAll_eq_filled hopen hk hc hclose context hcut
    (fun p hp => hpieces p (List.dropLast_subset _ hp)) [] fun r _ => Text.avoids_nil r
  have hrender : (render t context d).result = .ok ((Cut.scanned d t).filled context) := by
    rw [Cut.result_render context hfits, Cut.placeholders]
    simpa using hrun
  have hclear := hcut.not_beginsAt_filled hopen hk hc hclose context hpieces
  have hnone := scan_eq_nil_of_not_beginsAt hfits (.inl hne) hclear
  exact ⟨_, hrender, hnone, fun other => result_render_of_scan_eq_nil hnone other⟩

/-- An empty value brings half of an opening delimiter in front of the other half, and a value closes
what the line in front of it leaves open. -/
theorem render_leaves_no_placeholder_at_seams :
    let d : Delimiters := ⟨['[', '['], [']']⟩
    let a := Placeholder.ofReference ['[', '[', 'a', ']']
    let b := Placeholder.ofReference ['[', '[', 'b', ']']
    let t := ['[', ' '] ++ a.reference ++ ['[', ']', '[', '[', '\n'] ++ b.reference ++ [']']
    let context : Json := .object [(a.path, .string []), (b.path, .string [']', '\n'])]
    (∀ p ∈ [a, b], '[' ∉ valueOf context p) ∧
      ∃ output, (render t context d).result = .ok output ∧ scan output d = .ok [] ∧
        ∀ other, (render output other d).result = .ok output := by
  intro d a b t context
  have hscan : scan t d = .ok [a, b] := by cbv
  have hvalues : ∀ p ∈ [a, b], '[' ∉ valueOf context p := by decide
  have hdelimiter : d.opening = List.replicate 2 '[' := rfl
  exact ⟨hvalues, render_leaves_no_placeholder hdelimiter (by decide) (by decide) (by decide) hscan
    context hvalues⟩

end Infill.Template
