import Mathlib.Algebra.GroupWithZero.Nat
import Infill.Proofs.Template.Leftmost

/-!
# What filling a template comes to

Placeholders are filled one after the other, each where its reference then occurs first.  The text in
front of the scanned place has been filled already and may hold anything, so the place that is filled
need not be the scanned one.  Two things are proved.

* Whatever the values are, everything behind the scanned place stays as it was
  (`suffix_fillAll`), so that each placeholder is found and replaced once, and the lengths add up
  (`length_fillAll`).  This needs only that the template ends with what is still to be filled.
* With an opening delimiter that is a run of one character, no reference begins in a gap of the
  scanned cut, whatever follows the gap (`IsFirst.avoids_gap`).  If the values are free of the
  character, none begins in front of the scanned place at all, and filling puts every value in the
  place of its reference (`fillAll_eq_filled`).
-/

set_option autoImplicit false

namespace Infill.Template

/-! ## What is still to be filled stays as it is -/

/-- One step: the reference is found no later than where it is known to stand, and what stands
behind it is kept. -/
theorem exists_fill_eq (context : Json) {output rest : Text} (p : Placeholder)
    (h : p.reference ++ rest <:+ output) :
    ∃ before behind, Text.cutAtFirst? p.reference output = some (before, behind) ∧
      before.length + p.reference.length + rest.length ≤ output.length ∧
      rest <:+ behind ∧
      fill context output p = before ++ valueOf context p ++ behind := by
  obtain ⟨front, rfl⟩ := h
  obtain ⟨before, behind, hcut, hle, hsuffix⟩ :=
    Text.exists_cutAtFirst?_append p.reference front rest
  refine ⟨before, behind, hcut, ?_, hsuffix, ?_⟩
  · simp only [List.length_append]
    omega
  · simp [fill, Text.replaceFirst, hcut]

/-- One step keeps what stands behind the reference. -/
theorem suffix_fill (context : Json) {output rest : Text} {p : Placeholder}
    (h : p.reference ++ rest <:+ output) : rest <:+ fill context output p := by
  obtain ⟨before, behind, -, -, hsuffix, hfill⟩ := exists_fill_eq context p h
  rw [hfill]
  exact hsuffix.trans (List.suffix_append _ behind)

/-- One step takes a reference out and puts a value in. -/
theorem length_fill (context : Json) {output rest : Text} {p : Placeholder}
    (h : p.reference ++ rest <:+ output) :
    (fill context output p).length + p.reference.length =
      output.length + (valueOf context p).length := by
  obtain ⟨before, behind, hcut, -, -, hfill⟩ := exists_fill_eq context p h
  have houtput := congrArg List.length (Text.eq_append_of_cutAtFirst? hcut)
  simp only [List.length_append] at houtput
  simp only [hfill, List.length_append]
  omega

/-- A run over some pieces keeps the pieces behind them and the tail. -/
theorem suffix_fillAll (context : Json) {output tail : Text} {done left : List Piece}
    (h : Cut.text ⟨done ++ left, tail⟩ <:+ output) :
    Cut.text ⟨left, tail⟩ <:+ fillAll context output (done.map Piece.placeholder) := by
  induction done generalizing output with
  | nil => exact h
  | cons p done ih =>
    rw [List.cons_append, Cut.text_cons] at h
    have hreference := (List.suffix_append p.gap _).trans h
    exact ih (suffix_fill context hreference)

/-- A run over all pieces takes out every reference and puts in every value. -/
theorem length_fillAll (context : Json) {output tail : Text} {pieces : List Piece}
    (h : Cut.text ⟨pieces, tail⟩ <:+ output) :
    (fillAll context output (pieces.map Piece.placeholder)).length +
        (pieces.map fun p => p.reference.length).sum =
      output.length + (pieces.map fun p => (valueOf context p.placeholder).length).sum := by
  induction pieces generalizing output with
  | nil => simp [fillAll]
  | cons p pieces ih =>
    rw [Cut.text_cons] at h
    have hreference := (List.suffix_append p.gap _).trans h
    have hstep := length_fill context (p := p.placeholder) hreference
    have hrun := ih (suffix_fill context (p := p.placeholder) hreference)
    rw [Piece.reference_placeholder] at hstep
    simp only [fillAll, List.map_cons, List.foldl_cons, List.sum_cons] at hrun ⊢
    omega

/-- Filling a template replaces every scanned placeholder once.  Before its turn its reference and
all that follows stand at the end of the text, it is found no later than there, and afterwards all
that followed still stands at the end; so the tail of the template ends the result, and the lengths
of references and values make up the difference in length. -/
theorem render_replaces_each_once {t : Text} {d : Delimiters} {placeholders : List Placeholder}
    (context : Json) (h : scan t d = .ok placeholders) :
    (render t context d).result = .ok (fillAll context t placeholders) ∧
    (∃ c : Cut, c.text = t ∧ c.placeholders = placeholders) ∧
    ∀ c : Cut, c.text = t → c.placeholders = placeholders →
      (∀ done p left, c.pieces = done ++ p :: left →
        let output := fillAll context t (done.map Piece.placeholder)
        let next := fillAll context t ((done ++ [p]).map Piece.placeholder)
        let behind := Cut.text ⟨left, c.tail⟩
        p.reference ++ behind <:+ output ∧
        (∃ before rest, Text.cutAtFirst? p.reference output = some (before, rest) ∧
          before.length + p.reference.length + behind.length ≤ output.length ∧
          next = before ++ valueOf context p.placeholder ++ rest) ∧
        behind <:+ next) ∧
      c.tail <:+ fillAll context t placeholders ∧
      (fillAll context t placeholders).length + (placeholders.map (·.reference.length)).sum =
        t.length + (placeholders.map fun p => (valueOf context p).length).sum := by
  obtain ⟨hfits, hscanned⟩ := Cut.scan_eq_ok_iff.1 h
  refine ⟨hscanned ▸ Cut.result_render context hfits,
    ⟨Cut.scanned d t, Cut.text_scanned d t, hscanned.symm⟩, ?_⟩
  rintro ⟨pieces, tail⟩ rfl rfl
  refine ⟨?_, ?_, ?_⟩
  · intro done p left hpieces output next behind
    obtain rfl : pieces = done ++ p :: left := hpieces
    have hleft : Cut.text ⟨p :: left, tail⟩ <:+ output := suffix_fillAll context List.suffix_rfl
    rw [Cut.text_cons] at hleft
    have hreference : p.reference ++ behind <:+ output := (List.suffix_append p.gap _).trans hleft
    have hnext : next = fill context output p.placeholder := by
      simp [next, output, fillAll]
    obtain ⟨before, rest, hcut, hle, -, hfill⟩ := exists_fill_eq context p.placeholder hreference
    refine ⟨hreference, ⟨before, rest, hcut, hle, hnext.trans hfill⟩, ?_⟩
    rw [hnext]
    exact suffix_fill context hreference
  · have hall : Cut.text ⟨pieces ++ [], tail⟩ <:+ Cut.text ⟨pieces, tail⟩ := by simp
    exact suffix_fillAll context hall
  · have hall : Cut.text ⟨pieces, tail⟩ <:+ Cut.text ⟨pieces, tail⟩ := List.suffix_rfl
    simpa [Cut.placeholders, Function.comp_def] using length_fillAll context hall

/-- A value that is written like the second placeholder is replaced in its stead, which the second
placeholder does not notice. -/
theorem render_replaces_each_once_rematched :
    let d : Delimiters := ⟨['('], [')']⟩
    let a : Placeholder := ⟨['(', 'a', ')'], ['(', 'a', ')']⟩
    let b : Placeholder := ⟨['(', 'b', ')'], ['(', 'b', ')']⟩
    let t := ['(', 'a', ')', ' ', '(', 'b', ')']
    let context : Json := .object [(a.path, .string b.reference), (b.path, .string ['B'])]
    scan t d = .ok [a, b] ∧ (render t context d).result = .ok ['B', ' ', '(', 'b', ')'] ∧
      b.reference <:+ fillAll context t [a] ∧
      (fillAll context t [a, b]).length + (3 + 3) = t.length + (3 + 1) := by
  intro d a b t context
  have hscan : scan t d = .ok [a, b] := by cbv
  obtain ⟨hrender, -, hcut⟩ := render_replaces_each_once context hscan
  obtain ⟨hturns, -, hlength⟩ := hcut ⟨[⟨[], a.reference⟩, ⟨[' '], b.reference⟩], []⟩ rfl rfl
  exact ⟨hscan, hrender, (hturns [⟨[], a.reference⟩] ⟨[' '], b.reference⟩ [] rfl).1, hlength⟩

/-! ## Filling in place -/

section RunOfOneCharacter

variable {d : Delimiters} {c : Char} {k : Nat}

/-- The gap of a first piece does not end in the character of the opening delimiter: a reference
would begin there. -/
theorem IsFirst.gap_ne_append_singleton {t gap reference rest : Text}
    (h : IsFirst d t gap reference rest) (hopen : d.opening = List.replicate k c) (hc : c ≠ '\n')
    (front : Text) : gap ≠ front ++ [c] := by
  rintro rfl
  obtain ⟨inner, hinner, href⟩ := h.isShortest.1
  have hlonger : IsReference d (c :: reference) := by
    refine ⟨c :: inner, by simp [hinner, Ne.symm hc], ?_⟩
    rw [href, hopen, ← List.singleton_append, ← List.append_assoc, ← List.append_assoc,
      ← List.replicate_one, List.replicate_append_replicate, Nat.add_comm,
      ← List.replicate_append_replicate]
    simp
  have hbegins : BeginsAt d t front.length := by
    have ht : t = front ++ ((c :: reference) ++ rest) := by simpa using h.text_eq
    rw [ht]
    exact hlonger.beginsAt front rest
  exact h.gap_clear front.length (by simp) hbegins

/-- No reference begins in the gap of a first piece, even if the gap is followed by other text than
in the template.  The opening delimiter would have to stand in the gap.  If the whole reference does
so, it begins there in the template too; if it goes on, the end of the gap has no line break, and in
the template the reference that follows the gap closes what was opened. -/
theorem IsFirst.avoids_gap {t gap reference rest r : Text} (h : IsFirst d t gap reference rest)
    (hopen : d.opening = List.replicate k c) (hc : c ≠ '\n') (hclose : '\n' ∉ d.closing)
    (hr : IsReference d r) : Text.Avoids r gap := by
  rintro inner hne ⟨skipped, rfl⟩ next hp
  have hclear : ∀ q, IsReference d q → ¬ q <+: inner ++ (reference ++ rest) := by
    intro q hq hq'
    refine h.gap_clear skipped.length ?_ ⟨q, hq, ?_⟩
    · have := List.length_pos_iff.2 hne
      simp only [List.length_append]
      omega
    · simpa [h.text_eq] using hq'
  obtain ⟨m, hm, rfl⟩ := hr
  rw [List.append_assoc] at hp
  -- The opening delimiter fits into what is left of the gap, which does not end in `c`.
  have hopening : d.opening <+: inner := by
    rcases List.prefix_or_prefix_of_prefix ((List.prefix_append _ _).trans hp)
      (List.prefix_append inner next) with hpre | hpre
    · exact hpre
    · obtain ⟨front, x, rfl⟩ : ∃ front x, inner = front ++ [x] :=
        ⟨inner.dropLast, inner.getLast hne, (List.dropLast_concat_getLast hne).symm⟩
      have hx : x ∈ List.replicate k c := by
        rw [← hopen]
        exact hpre.subset (by simp)
      obtain rfl : x = c := List.eq_of_mem_replicate hx
      exact absurd (by simp) (h.gap_ne_append_singleton hopen hc (skipped ++ front))
  obtain ⟨gapEnd, rfl⟩ := hopening
  have hbehind : m ++ d.closing <+: gapEnd ++ next := by
    simpa [List.prefix_append_right_inj] using hp
  rcases List.prefix_or_prefix_of_prefix hbehind (List.prefix_append gapEnd next) with hpre | hpre
  · refine hclear (d.opening ++ m ++ d.closing) ⟨m, hm, rfl⟩ ?_
    rw [List.append_assoc, List.append_assoc]
    exact (List.prefix_append_right_inj d.opening).2 (hpre.trans (List.prefix_append gapEnd _))
  · have hend : '\n' ∉ gapEnd := by
      intro hmem
      rcases List.mem_append.1 (hpre.subset hmem) with hmem | hmem
      · exact hm hmem
      · exact hclose hmem
    obtain ⟨inner', hinner', href⟩ := h.isShortest.1
    have hopening : '\n' ∉ d.opening := by
      rw [hopen]
      exact fun hmem => hc (List.eq_of_mem_replicate hmem).symm
    refine hclear (d.opening ++ (gapEnd ++ d.opening ++ inner') ++ d.closing) ⟨_, ?_, rfl⟩ ?_
    · simp [hend, hopening, hinner']
    · rw [href]
      exact ⟨rest, by simp⟩

/-- No reference begins in a value without the character of the opening delimiter. -/
theorem IsReference.avoids {r value : Text} (hr : IsReference d r)
    (hopen : d.opening = List.replicate k c) (hk : 1 ≤ k) (hvalue : c ∉ value) :
    Text.Avoids r value := by
  obtain ⟨inner, -, rfl⟩ := hr
  obtain ⟨k, rfl⟩ := Nat.exists_eq_add_of_le' hk
  rw [hopen, List.replicate_succ, List.cons_append, List.cons_append]
  exact Text.avoids_of_not_mem hvalue

/-- A run over a leftmost, shortest cut puts every value in the place of its reference, if the text
in front of it and all values but the last one hold no opening delimiter. -/
theorem fillAll_eq_filled (hopen : d.opening = List.replicate k c) (hk : 1 ≤ k) (hc : c ≠ '\n')
    (hclose : '\n' ∉ d.closing) (context : Json) {t tail : Text} {pieces : List Piece}
    (hcut : LeftmostShortest d t ⟨pieces, tail⟩)
    (hvalues : ∀ p ∈ pieces.dropLast, c ∉ valueOf context p.placeholder)
    (front : Text) (hfront : ∀ r, IsReference d r → Text.Avoids r front) :
    fillAll context (front ++ t) (pieces.map Piece.placeholder) =
      front ++ Cut.filled context ⟨pieces, tail⟩ := by
  induction pieces generalizing t front with
  | nil =>
    obtain ⟨rfl, -⟩ := leftmostShortest_nil_iff.1 hcut
    rfl
  | cons p pieces ih =>
    obtain ⟨rest, hfirst, hrest⟩ := leftmostShortest_cons_iff.1 hcut
    have hgap : ∀ r, IsReference d r → Text.Avoids r (front ++ p.gap) := fun r hr =>
      (hfront r hr).append (hfirst.avoids_gap hopen hc hclose hr)
    have hstep : fill context (front ++ t) p.placeholder =
        front ++ p.gap ++ (valueOf context p.placeholder ++ rest) := by
      rw [hfirst.text_eq, ← List.append_assoc]
      exact Text.replaceFirst_of_avoids (hgap p.reference hfirst.isShortest.1) _ rest
    rw [List.map_cons, fillAll, List.foldl_cons, hstep, ← fillAll, Cut.filled_cons]
    cases pieces with
    | nil =>
      obtain ⟨rfl, -⟩ := leftmostShortest_nil_iff.1 hrest
      simp [fillAll]
    | cons q pieces =>
      have hvalue : c ∉ valueOf context p.placeholder := hvalues p (by simp)
      have hrun := ih hrest (fun p' hp' => hvalues p' (by simp [hp']))
        (front ++ p.gap ++ valueOf context p.placeholder)
        (fun r hr => (hgap r hr).append (hr.avoids hopen hk hvalue))
      simpa using hrun

end RunOfOneCharacter

/-- With an opening delimiter that is a run of one character other than a line break, and a closing
one without line breaks, filling puts every value in the place of its reference in the scanned cut,
if no value but the last one holds that character. -/
theorem render_in_place {d : Delimiters} {c : Char} {k : Nat}
    (hopen : d.opening = List.replicate k c) (hk : 1 ≤ k) (hc : c ≠ '\n')
    (hclose : '\n' ∉ d.closing) (hfits : d.fits = true) (t : Text) (context : Json)
    (hvalues : ∀ p ∈ (Cut.scanned d t).pieces.dropLast, c ∉ valueOf context p.placeholder) :
    scan t d = .ok (Cut.scanned d t).placeholders ∧ LeftmostShortest d t (Cut.scanned d t) ∧
      (render t context d).result = .ok ((Cut.scanned d t).filled context) := by
  have hne : d.opening ≠ [] := by
    rw [hopen, Ne, List.replicate_eq_nil_iff]
    omega
  have hcut := leftmostShortest_scanned (.inl hne) t
  have hrun := fillAll_eq_filled hopen hk hc hclose context hcut hvalues []
    (fun r _ => Text.avoids_nil r)
  refine ⟨Cut.scan_eq_ok_iff.2 ⟨hfits, rfl⟩, hcut, ?_⟩
  rw [Cut.result_render context hfits, Cut.placeholders]
  simpa using hrun

/-- A placeholder that occurs twice, a value with a line break and the closing delimiter, and an
opening delimiter that is left open in a gap. -/
theorem render_in_place_repeated :
    let d : Delimiters := ⟨['[', '['], [']']⟩
    let a := ['[', '[', 'a', ']']
    let t := a ++ ['[', '\n'] ++ ['[', '[', ']'] ++ ['[', '[', '\n'] ++ a
    let context : Json := .object [(a, .string ['x', '\n', ']'])]
    (∀ p ∈ (Cut.scanned d t).pieces.dropLast, '[' ∉ valueOf context p.placeholder) ∧
      (render t context d).result =
        .ok (['x', '\n', ']'] ++ ['[', '\n'] ++ [] ++ ['[', '[', '\n'] ++ ['x', '\n', ']']) := by
  intro d a t context
  have hcut : Cut.scanned d t =
      ⟨[⟨[], a⟩, ⟨['[', '\n'], ['[', '[', ']']⟩, ⟨['[', '[', '\n'], a⟩], []⟩ := by cbv
  have hvalues : ∀ p ∈ (Cut.scanned d t).pieces.dropLast,
      '[' ∉ valueOf context p.placeholder := by
    rw [hcut]
    decide
  obtain ⟨-, -, hrender⟩ := render_in_place (d := d) (c := '[') (k := 2) rfl (by decide)
    (by decide) (by decide) (by decide) t context hvalues
  exact ⟨hvalues, hrender.trans (by rw [hcut]; rfl)⟩

end Infill.Template
