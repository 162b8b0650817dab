import Infill.Template.Render

/-!
# Templates cut around their placeholders

A template is gaps and references in turn: `g₀ r₁ g₁ … rₙ gₙ`.  A `Cut` holds them as pieces, each a
gap with the reference behind it, and the gap that is left at the end.  `Cut.scanned` is the cut that
scanning makes; it loses nothing of the template (`text_scanned`), and its references are what a scan
finds (`scan_eq_ok_iff`).

`Cut.filled` puts a value in the place of each reference, all at once and where the references stand.
-/

set_option autoImplicit false

namespace Infill.Template

/-- A gap of a template and the reference that ends it. -/
structure Piece where
  gap : Text
  reference : Text
  deriving DecidableEq, Repr

namespace Piece

/-- The piece as it stands in the template. -/
def text (p : Piece) : Text := p.gap ++ p.reference

/-- The placeholder that the reference of a piece writes. -/
def placeholder (p : Piece) : Placeholder := .ofReference p.reference

/-- The piece with its value in the place of its reference. -/
def filled (context : Json) (p : Piece) : Text := p.gap ++ valueOf context p.placeholder

/-- The reference of a piece is that of its placeholder. -/
@[simp] theorem reference_placeholder (p : Piece) : p.placeholder.reference = p.reference := rfl

end Piece

/-- A template cut around some references. -/
structure Cut where
  pieces : List Piece
  tail : Text
  deriving DecidableEq, Repr

namespace Cut

/-- The text that was cut. -/
def text (c : Cut) : Text := c.pieces.flatMap Piece.text ++ c.tail

/-- The placeholders of a cut, from left to right. -/
def placeholders (c : Cut) : List Placeholder := c.pieces.map Piece.placeholder

/-- The text with a value in the place of every reference. -/
def filled (context : Json) (c : Cut) : Text := c.pieces.flatMap (Piece.filled context) ++ c.tail

/-- The cut around the references that scanning finds. -/
def scanned (d : Delimiters) (t : Text) : Cut :=
  match _h : firstPlaceholder? d t with
  | none => ⟨[], t⟩
  | some (gap, reference, rest) =>
    if reference.isEmpty then ⟨[], t⟩
    else
      let c := scanned d rest
      ⟨⟨gap, reference⟩ :: c.pieces, c.tail⟩
  termination_by t.length
  decreasing_by
    rename_i hne
    have hlen := congrArg List.length (eq_append_of_firstPlaceholder? _h)
    have : 0 < reference.length := List.length_pos_iff.2 (by simpa using hne)
    simp only [List.length_append] at hlen
    omega

/-- Without pieces the text is its tail. -/
@[simp] theorem text_nil (tail : Text) : text ⟨[], tail⟩ = tail := rfl

/-- A text with pieces begins with the first gap and the first reference. -/
@[simp] theorem text_cons (p : Piece) (pieces : List Piece) (tail : Text) :
    text ⟨p :: pieces, tail⟩ = p.gap ++ (p.reference ++ text ⟨pieces, tail⟩) := by
  simp [text, Piece.text]

/-- Without pieces nothing is filled. -/
@[simp] theorem filled_nil (context : Json) (tail : Text) : filled context ⟨[], tail⟩ = tail := rfl

/-- The first reference is filled, and the others behind it are. -/
@[simp] theorem filled_cons (context : Json) (p : Piece) (pieces : List Piece) (tail : Text) :
    filled context ⟨p :: pieces, tail⟩ =
      p.gap ++ (valueOf context p.placeholder ++ filled context ⟨pieces, tail⟩) := by
  simp [filled, Piece.filled]

/-! ## The equations of the scanned cut -/

/-- Without a placeholder the whole text is tail. -/
theorem scanned_of_none {d : Delimiters} {t : Text} (h : firstPlaceholder? d t = none) :
    scanned d t = ⟨[], t⟩ := by
  rw [scanned]
  split
  · rfl
  · rename_i hsome
    rw [h] at hsome
    exact absurd hsome (by simp)

/-- The first placeholder makes the first piece. -/
theorem scanned_of_some {d : Delimiters} {t gap reference rest : Text}
    (h : firstPlaceholder? d t = some (gap, reference, rest)) (hne : reference ≠ []) :
    scanned d t = ⟨⟨gap, reference⟩ :: (scanned d rest).pieces, (scanned d rest).tail⟩ := by
  rw [scanned]
  split
  · rename_i hnone
    rw [h] at hnone
    exact absurd hnone (by simp)
  · rename_i gap' reference' rest' hsome
    rw [h] at hsome
    obtain ⟨rfl, rfl, rfl⟩ : gap = gap' ∧ reference = reference' ∧ rest = rest' := by
      simpa using hsome
    simp [hne]

/-- An empty placeholder ends the scan, and the whole text is tail. -/
theorem scanned_of_empty {d : Delimiters} {t gap rest : Text}
    (h : firstPlaceholder? d t = some (gap, [], rest)) : scanned d t = ⟨[], t⟩ := by
  rw [scanned]
  split
  · rfl
  · rename_i gap' reference' rest' hsome
    rw [h] at hsome
    obtain ⟨rfl, rfl, rfl⟩ : gap = gap' ∧ [] = reference' ∧ rest = rest' := by
      simpa using hsome
    simp

/-! ## What scanning keeps and finds -/

/-- Cutting a template loses nothing of it. -/
theorem text_scanned (d : Delimiters) (t : Text) : (scanned d t).text = t := by
  fun_induction references d t with
  | case1 t hnone => simp [scanned_of_none hnone]
  | case2 t gap reference rest hsome hempty =>
    obtain rfl : reference = [] := by simpa using hempty
    simp [scanned_of_empty hsome]
  | case3 t gap reference rest hsome hne ih =>
    have hcut := scanned_of_some hsome (by simpa using hne)
    rw [hcut, text_cons, ih, eq_append_of_firstPlaceholder? hsome, List.append_assoc]

/-- The references of the cut are those of the scan, in the same order. -/
theorem map_reference_scanned (d : Delimiters) (t : Text) :
    (scanned d t).pieces.map Piece.reference = references d t := by
  fun_induction references d t with
  | case1 t hnone => simp [scanned_of_none hnone]
  | case2 t gap reference rest hsome hempty =>
    obtain rfl : reference = [] := by simpa using hempty
    simp [scanned_of_empty hsome]
  | case3 t gap reference rest hsome hne ih =>
    simp [scanned_of_some hsome (by simpa using hne), ih]

/-- A scan succeeds where the delimiters are not too long, and finds the placeholders of the cut. -/
theorem scan_eq_ok_iff {t : Text} {d : Delimiters} {placeholders : List Placeholder} :
    scan t d = .ok placeholders ↔ d.fits = true ∧ placeholders = (scanned d t).placeholders := by
  have hfound : (scanned d t).placeholders = (references d t).map Placeholder.ofReference := by
    rw [← map_reference_scanned, List.map_map]
    rfl
  rw [hfound, scan]
  by_cases hfits : d.fits = true
  · simp [hfits, eq_comm]
  · simp [hfits]

/-- A template that can be scanned is filled with the placeholders of its cut. -/
theorem result_render {t : Text} {d : Delimiters} (context : Json) (h : d.fits = true) :
    (render t context d).result = .ok (fillAll context t (scanned d t).placeholders) := by
  have hscan : scan t d = .ok (scanned d t).placeholders := scan_eq_ok_iff.2 ⟨h, rfl⟩
  simp [render, hscan, Except.bind]

end Cut
end Infill.Template
