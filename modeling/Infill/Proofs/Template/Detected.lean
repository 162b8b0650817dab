import Infill.Proofs.Template.Layers
import Infill.Proofs.Template.Settled
import Infill.Proofs.Text.Pieces

/-!
# Templates taken for paths

A text is guessed to be a path if it is one line and holds no opening delimiter (`detect_eq_path_iff`), whether
or not anything closes one.  Where a scan finds a placeholder, there is an opening delimiter
(`opening_infix_of_scan`), however the two delimiters overlap and even if one of them is empty or holds a line
break.  So a template with placeholders is never taken for a path, and a template that is taken for one would be
filled with itself (`detect_keeps_placeholders`).
-/

set_option autoImplicit false

namespace Infill.Template

variable {s : Text} {d : Delimiters} {placeholders : List Placeholder}

/-! ## Opening delimiters -/

/-- The references of a cut stand in the text that was cut. -/
theorem Cut.reference_infix {c : Cut} {p : Piece} (h : p ∈ c.pieces) : p.reference <:+: c.text := by
  obtain ⟨before, after, hpieces⟩ := List.append_of_mem h
  refine ⟨before.flatMap Piece.text ++ p.gap, after.flatMap Piece.text ++ c.tail, ?_⟩
  simp [Cut.text, hpieces, Piece.text]

/-- A reference begins with the opening delimiter. -/
theorem IsReference.startsWith_opening {r : Text} (h : IsReference d r) : d.opening <+: r := by
  obtain ⟨inner, -, rfl⟩ := h
  exact ⟨inner ++ d.closing, (List.append_assoc _ _ _).symm⟩

/-- Where a scan finds something, there is an opening delimiter. -/
theorem opening_infix_of_scan (h : scan s d = .ok placeholders) (hne : placeholders ≠ []) :
    d.opening <:+: s := by
  -- An empty delimiter is in every text; with another one the references are those of the leftmost cut.
  by_cases hopening : d.opening = []
  · rw [hopening]
    exact List.nil_infix
  · obtain ⟨-, rfl⟩ := Cut.scan_eq_ok_iff.1 h
    have hcut := leftmostShortest_scanned (.inl hopening) s
    obtain ⟨placeholder, hplaceholder⟩ := List.exists_mem_of_ne_nil _ hne
    obtain ⟨p, hp, -⟩ := List.mem_map.1 hplaceholder
    have hreference : p.reference <:+: s := by
      rw [← hcut.text_eq]
      exact Cut.reference_infix hp
    have hprefix : d.opening <+: p.reference := (hcut.isShortest p hp).1.startsWith_opening
    exact hprefix.isInfix.trans hreference

/-! ## What is guessed -/

/-- A path is a text on one line without the opening delimiter. -/
theorem looksLikePath_iff : looksLikePath s d = true ↔ s ≠ [] ∧ '\n' ∉ s ∧ ¬ d.opening <:+: s := by
  rw [← Text.contains_iff_infix]
  simp [looksLikePath, and_assoc]

/-- A text is taken for a path, and for no other than itself, if it is one line without an opening delimiter. -/
theorem detect_eq_path_iff {p : Path} :
    TemplateSource.detect s d = .path p ↔ p = s ∧ s ≠ [] ∧ '\n' ∉ s ∧ ¬ d.opening <:+: s := by
  rw [← looksLikePath_iff, TemplateSource.detect]
  split_ifs with h
  · simp [h, eq_comm]
  · simp [h]

/-- A template that holds no placeholder is compiled to itself, if its data can be loaded. -/
theorem result_compile_of_scan_eq_nil (hs : s ≠ []) {documents : Documents} {options : CompileOptions}
    (htemplate : options.template = .inline s) (hscan : scan s options.delimiters = .ok []) {data : Json}
    (hdata : (loadData documents options.data).result = .ok data) :
    (compile documents options).result = .ok s := by
  have hempty : options.template.isEmpty = false := by
    rw [htemplate]
    simpa [TemplateSource.isEmpty] using hs
  have hload : loadTemplate documents options.template = .ok s := by
    rw [htemplate]
    rfl
  rw [result_compile hempty hload hdata, result_render_of_scan_eq_nil hscan]
  rfl

/-- A text with placeholders is taken for a template, as it is.  What is taken for a path is one line without an
opening delimiter.  As a template it would be filled with itself, whatever the data, and compiled to itself if the
data can be loaded. -/
theorem detect_keeps_placeholders (hscan : scan s d = .ok placeholders) :
    (placeholders ≠ [] → TemplateSource.detect s d = .inline s) ∧
    (∀ p, TemplateSource.detect s d = .path p ↔ p = s ∧ s ≠ [] ∧ '\n' ∉ s ∧ ¬ d.opening <:+: s) ∧
    ∀ p, TemplateSource.detect s d = .path p →
      (∀ context, (render s context d).result = .ok s) ∧
      ∀ documents options data, options.template = .inline s → options.delimiters = d →
        (loadData documents options.data).result = .ok data → (compile documents options).result = .ok s := by
  refine ⟨fun hne => ?_, fun p => detect_eq_path_iff, fun p hp => ?_⟩
  · have hopening := opening_infix_of_scan hscan hne
    exact if_neg fun hpath => (looksLikePath_iff.1 hpath).2.2 hopening
  · obtain ⟨-, hs, -, hopening⟩ := detect_eq_path_iff.1 hp
    obtain rfl : placeholders = [] := by
      by_contra hne
      exact hopening (opening_infix_of_scan hscan hne)
    refine ⟨result_render_of_scan_eq_nil hscan, ?_⟩
    rintro documents options data htemplate rfl hdata
    exact result_compile_of_scan_eq_nil hs htemplate hscan hdata

/-- Between delimiters that overlap, `<<` and `<`, the text `a<<<` is a template, and `a<` is a path, though it
holds the closing one. -/
theorem detect_keeps_placeholders_overlapping :
    let d : Delimiters := ⟨['<', '<'], ['<']⟩
    let template : Text := ['a', '<', '<', '<']
    let path : Text := ['a', '<']
    (scan template d = .ok [.ofReference ['<', '<', '<']] ∧ TemplateSource.detect template d = .inline template) ∧
      scan path d = .ok [] ∧ TemplateSource.detect path d = .path path ∧
        ∀ context, (render path context d).result = .ok path := by
  intro d template path
  have htemplate : scan template d = .ok [.ofReference ['<', '<', '<']] := by cbv
  have hpath : scan path d = .ok [] := by cbv
  have hdetect : TemplateSource.detect path d = .path path := by
    refine ((detect_keeps_placeholders hpath).2.1 path).2 ⟨rfl, ?_⟩
    decide
  refine ⟨⟨htemplate, (detect_keeps_placeholders htemplate).1 (List.cons_ne_nil _ _)⟩, hpath, hdetect, ?_⟩
  exact ((detect_keeps_placeholders hpath).2.2 path hdetect).1

end Infill.Template
