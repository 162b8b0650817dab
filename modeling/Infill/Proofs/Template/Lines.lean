import Infill.Proofs.Template.Leftmost
import Infill.Proofs.Text.Parts

/-!
# Templates line by line

A placeholder stands on one line, and if the delimiters hold no line break, what is on one line has no say in
what is found on another.  Each step of the scan takes the same from a text with more lines below it as from
the text alone (`closeAt?_append`, `placeholderAt?_append`), and where a text has no placeholder left, the scan
goes on in the lines below it (`firstPlaceholder?_append_of_none`).  So the references of two texts with a line
break between them are those of the one and those of the other (`references_append`).
-/

set_option autoImplicit false

namespace Infill.Template

variable {d : Delimiters} {t gap reference rest : Text}

/-! ## What is found above a line break -/

/-- A closing delimiter on the first line is found there. -/
theorem closeAt?_append {closing : Text} (h : '\n' ∉ closing) (a b : Text) :
    closeAt? closing (a ++ '\n' :: b) =
      (closeAt? closing a).map fun (m, rest) => (m, rest ++ '\n' :: b) := by
  induction a with
  | nil =>
    have hafter := Text.after?_append h [] b
    rw [List.nil_append] at hafter ⊢
    rw [closeAt?.eq_def, closeAt?.eq_def, hafter]
    cases Text.after? closing [] <;> simp
  | cons c a ih =>
    have hafter := Text.after?_append h (c :: a) b
    rw [List.cons_append] at hafter ⊢
    rw [closeAt?.eq_def, closeAt?.eq_def closing (c :: a), hafter]
    cases Text.after? closing (c :: a) with
    | some rest => rfl
    | none =>
      by_cases hc : c = '\n'
      · simp [hc]
      · simp [hc, ih, Function.comp_def]

section NoLineBreaks

variable (hopening : '\n' ∉ d.opening) (hclosing : '\n' ∉ d.closing)
include hopening hclosing

/-- A placeholder on the first line is found there. -/
theorem placeholderAt?_append (a b : Text) :
    placeholderAt? d (a ++ '\n' :: b) =
      (placeholderAt? d a).map fun (reference, rest) => (reference, rest ++ '\n' :: b) := by
  rw [placeholderAt?, placeholderAt?, Text.after?_append hopening]
  cases Text.after? d.opening a with
  | none => rfl
  | some behind =>
    simp only [Option.map_some, Option.bind_some, closeAt?_append hclosing, Option.map_map]
    rfl

/-- The first placeholder of a text is the first one with more lines below the text. -/
theorem firstPlaceholder?_append_of_some (h : firstPlaceholder? d t = some (gap, reference, rest)) (b : Text) :
    firstPlaceholder? d (t ++ '\n' :: b) = some (gap, reference, rest ++ '\n' :: b) := by
  fun_induction firstPlaceholder? d t generalizing gap with
  | case1 t r s hr =>
    obtain ⟨rfl, rfl, rfl⟩ : [] = gap ∧ r = reference ∧ s = rest := by simpa using h
    rw [firstPlaceholder?.eq_def, placeholderAt?_append hopening hclosing, hr]
    rfl
  | case2 => cases h
  | case3 c t hnone ih =>
    obtain ⟨⟨g, r, s⟩, hg, he⟩ := Option.map_eq_some_iff.1 h
    obtain ⟨rfl, rfl, rfl⟩ : c :: g = gap ∧ r = reference ∧ s = rest := by simpa using he
    have hfront := placeholderAt?_append hopening hclosing (c :: t) b
    rw [hnone, List.cons_append] at hfront
    rw [List.cons_append, firstPlaceholder?.eq_def, hfront]
    simp [ih hg]

/-- Where a text has no placeholder, the first one is that of the lines below. -/
theorem firstPlaceholder?_append_of_none (h : firstPlaceholder? d t = none) (b : Text) :
    firstPlaceholder? d (t ++ '\n' :: b) =
      (firstPlaceholder? d b).map fun (gap, reference, rest) => (t ++ '\n' :: gap, reference, rest) := by
  fun_induction firstPlaceholder? d t with
  | case1 => cases h
  | case2 hnone =>
    have hfront := placeholderAt?_append hopening hclosing [] b
    rw [hnone, List.nil_append] at hfront
    rw [List.nil_append, firstPlaceholder?.eq_def, hfront]
    rfl
  | case3 c t hnone ih =>
    have hrest := ih (Option.map_eq_none_iff.1 h)
    have hfront := placeholderAt?_append hopening hclosing (c :: t) b
    rw [hnone, List.cons_append] at hfront
    rw [List.cons_append, firstPlaceholder?.eq_def, hfront]
    simp [hrest, Function.comp_def]

end NoLineBreaks

/-! ## References -/

/-- Texts whose first placeholders are the same but for what stands in front have the same references. -/
theorem references_eq_of_firstPlaceholder? (front : Text) {b : Text}
    (h : firstPlaceholder? d t =
      (firstPlaceholder? d b).map fun (gap, reference, rest) => (front ++ gap, reference, rest)) :
    references d t = references d b := by
  rw [← Cut.map_reference_scanned, ← Cut.map_reference_scanned]
  cases hb : firstPlaceholder? d b with
  | none =>
    rw [hb] at h
    rw [Cut.scanned_of_none h, Cut.scanned_of_none hb]
  | some first =>
    obtain ⟨gap, reference, rest⟩ := first
    rw [hb] at h
    by_cases hempty : reference = []
    · subst hempty
      rw [Cut.scanned_of_empty h, Cut.scanned_of_empty hb]
    · rw [Cut.scanned_of_some h hempty, Cut.scanned_of_some hb hempty]
      rfl

/-- Only empty delimiters have an empty reference, and they find nothing. -/
theorem references_of_empty (h : firstPlaceholder? d t = some (gap, [], rest)) (other : Text) :
    references d other = [] := by
  obtain ⟨inner, -, hreference⟩ := (isFirst_of_firstPlaceholder? h).isShortest.1
  obtain ⟨hfront, hclosing⟩ := List.append_eq_nil_iff.1 hreference.symm
  have hopening := (List.append_eq_nil_iff.1 hfront).1
  rw [← Cut.map_reference_scanned, scanned_of_empty_delimiters hopening hclosing]
  rfl

/-- The references of two texts with a line break between them are those of the first and those of the
second. -/
theorem references_append (hopening : '\n' ∉ d.opening) (hclosing : '\n' ∉ d.closing) (a b : Text) :
    references d (a ++ '\n' :: b) = references d a ++ references d b := by
  fun_induction references d a with
  | case1 a hnone =>
    have hfirst := firstPlaceholder?_append_of_none hopening hclosing hnone b
    have hsame : references d (a ++ '\n' :: b) = references d b :=
      references_eq_of_firstPlaceholder? (a ++ ['\n']) (by simpa using hfirst)
    rw [hsame, List.nil_append]
  | case2 a gap reference rest hsome hempty =>
    obtain rfl : reference = [] := by simpa using hempty
    rw [references_of_empty hsome, references_of_empty hsome]
    rfl
  | case3 a gap reference rest hsome hne ih =>
    have hfirst := firstPlaceholder?_append_of_some hopening hclosing hsome b
    rw [← Cut.map_reference_scanned, Cut.scanned_of_some hfirst (by simpa using hne), List.map_cons,
      Cut.map_reference_scanned, ih, List.cons_append]

/-! ## Scans -/

/-- The references of some lines are those of each line, one line after the other. -/
theorem references_joinWith (hopening : '\n' ∉ d.opening) (hclosing : '\n' ∉ d.closing) {lines : List Text}
    (h : lines ≠ []) : references d (Text.joinWith ['\n'] lines) = lines.flatMap (references d) := by
  induction lines with
  | nil => exact absurd rfl h
  | cons line lines ih =>
    cases lines with
    | nil => simp [Text.joinWith]
    | cons next lines =>
      have hjoin := Text.joinWith_append '\n' (List.cons_ne_nil line []) (List.cons_ne_nil next lines)
      have hrest := ih (List.cons_ne_nil next lines)
      rw [List.singleton_append] at hjoin
      rw [hjoin, references_append hopening hclosing, hrest, List.flatMap_cons]
      simp [Text.joinWith]

/-- If the delimiters hold no line break, scanning two texts with a line break between them finds what scanning
the first does and then what scanning the second does.  So it finds in a text what it finds in each of its
lines, one line after the other. -/
theorem scan_line_by_line (hopening : '\n' ∉ d.opening) (hclosing : '\n' ∉ d.closing) :
    (∀ a b, scan (a ++ '\n' :: b) d = do
      let front ← scan a d
      let back ← scan b d
      return front ++ back) ∧
    ∀ t, scan t d = ((Text.splitOn '\n' t).mapM (scan · d)).map List.flatten := by
  by_cases hfits : d.fits = true
  · have hscan : ∀ t, scan t d = .ok ((references d t).map Placeholder.ofReference) :=
      fun t => if_pos hfits
    refine ⟨fun a b => ?_, fun t => ?_⟩
    · rw [hscan, hscan, hscan, references_append hopening hclosing, List.map_append]
      rfl
    · have hlines : references d t = (Text.splitOn '\n' t).flatMap (references d) := by
        rw [← references_joinWith hopening hclosing (Text.splitOn_ne_nil '\n' t), Text.joinWith_splitOn]
      have hall : (Text.splitOn '\n' t).mapM (scan · d) =
          .ok ((Text.splitOn '\n' t).map fun line => (references d line).map Placeholder.ofReference) := by
        simp only [hscan]
        exact List.mapM_pure
      rw [hscan, hall, hlines, List.map_flatMap, List.flatMap_def]
      rfl
  · have hscan : ∀ t, scan t d = .error .tooLong := fun t => if_neg hfits
    refine ⟨fun a b => ?_, fun t => ?_⟩
    · rw [hscan, hscan]
      rfl
    · obtain ⟨line, lines, hlines⟩ := List.exists_cons_of_ne_nil (Text.splitOn_ne_nil '\n' t)
      rw [hscan, hlines, List.mapM_cons, hscan]
      rfl

/-- A placeholder that its line leaves open, and a line with a closing delimiter in front, hide nothing. -/
theorem scan_line_by_line_unclosed :
    let d : Delimiters := ⟨['('], [')']⟩
    let a : Text := ['(', 'a', ')', '(', 'b']
    let b : Text := [')', '(', 'c', ')']
    '\n' ∉ d.opening ∧ '\n' ∉ d.closing ∧
      scan (a ++ '\n' :: b) d = .ok [.ofReference ['(', 'a', ')'], .ofReference ['(', 'c', ')']] := by
  intro d a b
  have hopening : '\n' ∉ d.opening := by decide
  have hclosing : '\n' ∉ d.closing := by decide
  have hfront : scan a d = .ok [.ofReference ['(', 'a', ')']] := by cbv
  have hback : scan b d = .ok [.ofReference ['(', 'c', ')']] := by cbv
  refine ⟨hopening, hclosing, ?_⟩
  rw [(scan_line_by_line hopening hclosing).1 a b, hfront, hback]
  rfl

end Infill.Template
