import Infill.Proofs.Template.Cut
import Infill.Proofs.Text.FirstOccurrence

/-!
# Scanning finds the leftmost, shortest placeholders

What scanning finds is said here without scanning.  A reference is the delimiters with no line break
between them (`IsReference`); it begins at a position of a text if some reference is at the front of
what stands there (`BeginsAt`).  A cut is leftmost and shortest if no reference begins in any of its
gaps and none of its references has a shorter one at its front (`LeftmostShortest`).

The ladder is `closeAt?`, `placeholderAt?`, `firstPlaceholder?`: each is sound, and fails only where
there is nothing to find.  A leftmost, shortest cut is then its first piece and such a cut of the rest
(`leftmostShortest_cons_iff`), from which follow that the scanned cut is one
(`leftmostShortest_scanned`) and that there is no other (`LeftmostShortest.unique`).
-/

set_option autoImplicit false

namespace Infill.Template

/-- A text written like a placeholder: the delimiters, with no line break between them. -/
def IsReference (d : Delimiters) (r : Text) : Prop :=
  ∃ inner, '\n' ∉ inner ∧ r = d.opening ++ inner ++ d.closing

/-- A reference with no shorter reference at its front. -/
def IsShortest (d : Delimiters) (r : Text) : Prop :=
  IsReference d r ∧ ∀ q, IsReference d q → q <+: r → q = r

/-- Some reference begins at position `k` of `t`. -/
def BeginsAt (d : Delimiters) (t : Text) (k : Nat) : Prop :=
  ∃ r, IsReference d r ∧ r <+: t.drop k

/-- A cut of `t` around shortest references, with no reference that begins outside of them. -/
structure LeftmostShortest (d : Delimiters) (t : Text) (c : Cut) : Prop where
  /-- The cut is one of the whole text. -/
  text_eq : c.text = t
  /-- The references are shortest ones. -/
  isShortest : ∀ p ∈ c.pieces, IsShortest d p.reference
  /-- No reference begins in the gap of a piece. -/
  gap_clear : ∀ before p after, c.pieces = before ++ p :: after →
    ∀ k < p.gap.length, ¬ BeginsAt d t ((before.flatMap Piece.text).length + k)
  /-- No reference begins at or behind the end of the last piece. -/
  tail_clear : ∀ k ≤ c.tail.length, ¬ BeginsAt d t ((c.pieces.flatMap Piece.text).length + k)

/-- The first piece of a text: a gap in which no reference begins, and a shortest reference. -/
structure IsFirst (d : Delimiters) (t gap reference rest : Text) : Prop where
  text_eq : t = gap ++ (reference ++ rest)
  isShortest : IsShortest d reference
  gap_clear : ∀ k < gap.length, ¬ BeginsAt d t k

/-! ## Positions -/

/-- Where references begin in the back of a text does not depend on the front. -/
theorem beginsAt_append_left (d : Delimiters) (a b : Text) (k : Nat) :
    BeginsAt d (a ++ b) (a.length + k) ↔ BeginsAt d b k := by
  simp [BeginsAt, List.drop_append, List.drop_eq_nil_of_le]

/-- Where references begin behind a first character. -/
theorem beginsAt_cons_succ (d : Delimiters) (c : Char) (t : Text) (k : Nat) :
    BeginsAt d (c :: t) (k + 1) ↔ BeginsAt d t k := by
  simp [BeginsAt]

/-- A reference begins where it stands. -/
theorem IsReference.beginsAt {d : Delimiters} {reference : Text} (h : IsReference d reference)
    (gap rest : Text) : BeginsAt d (gap ++ (reference ++ rest)) gap.length :=
  ⟨reference, h, by simp⟩

/-! ## The ladder of the scan -/

/-- The closing delimiter is found behind the fewest characters that are not line breaks. -/
theorem shortest_of_closeAt? {closing t m rest : Text} (h : closeAt? closing t = some (m, rest)) :
    ∃ inner, '\n' ∉ inner ∧ m = inner ++ closing ∧
      ∀ other, '\n' ∉ other → other ++ closing <+: t → inner.length ≤ other.length := by
  fun_induction closeAt? closing t generalizing m with
  | case1 t r hr =>
    obtain ⟨rfl, rfl⟩ : closing = m ∧ r = rest := by simpa using h
    exact ⟨[], by simp, by simp, by simp⟩
  | case2 => simp at h
  | case3 => simp at h
  | case4 c t hc hafter ih =>
    obtain ⟨⟨m', r'⟩, hm, he⟩ := Option.map_eq_some_iff.1 h
    obtain ⟨rfl, rfl⟩ : c :: m' = m ∧ r' = rest := by simpa using he
    obtain ⟨inner, hinner, rfl, hleast⟩ := ih hm
    refine ⟨c :: inner, by simp [hinner, Ne.symm hc], rfl, ?_⟩
    intro other hother hp
    cases other with
    | nil => exact absurd hp (Text.after?_eq_none_iff.1 hafter)
    | cons x other =>
      have htail : other ++ closing <+: t := (List.cons_prefix_cons.1 hp).2
      have hle := hleast other (fun hmem => hother (List.mem_cons_of_mem x hmem)) htail
      simpa using hle

/-- Where no closing delimiter is found, there is none before the end of the line. -/
theorem not_closed_of_closeAt?_eq_none {closing t : Text} (h : closeAt? closing t = none) :
    ∀ inner, '\n' ∉ inner → ¬ inner ++ closing <+: t := by
  intro inner hinner
  fun_induction closeAt? closing t generalizing inner with
  | case1 => simp at h
  | case2 hafter =>
    intro hp
    have hnot := Text.after?_eq_none_iff.1 hafter
    simp only [List.prefix_nil, List.append_eq_nil_iff] at hp
    exact hnot (by simp [hp.2])
  | case3 c hafter =>
    intro hp
    cases inner with
    | nil => exact Text.after?_eq_none_iff.1 hafter hp
    | cons x inner =>
      obtain rfl : x = '\n' := (List.cons_prefix_cons.1 hp).1
      exact hinner (by simp)
  | case4 c t hc hafter ih =>
    intro hp
    cases inner with
    | nil => exact Text.after?_eq_none_iff.1 hafter hp
    | cons x inner =>
      have htail : inner ++ closing <+: t := (List.cons_prefix_cons.1 hp).2
      exact ih (by simpa using h) inner (fun hmem => hinner (List.mem_cons_of_mem x hmem)) htail

/-- What is found at the front is a shortest reference. -/
theorem isShortest_of_placeholderAt? {d : Delimiters} {t reference rest : Text}
    (h : placeholderAt? d t = some (reference, rest)) : IsShortest d reference := by
  obtain ⟨behind, hbehind, h⟩ := Option.bind_eq_some_iff.1 h
  obtain ⟨⟨m, r⟩, hm, he⟩ := Option.map_eq_some_iff.1 h
  obtain ⟨rfl, rfl⟩ : d.opening ++ m = reference ∧ r = rest := by simpa using he
  obtain ⟨inner, hinner, rfl, hleast⟩ := shortest_of_closeAt? hm
  refine ⟨⟨inner, hinner, by simp⟩, ?_⟩
  rintro q ⟨other, hother, rfl⟩ hp
  have hp' : other ++ d.closing <+: inner ++ d.closing := by
    simpa [List.prefix_append_right_inj] using hp
  have hle : inner.length ≤ other.length := by
    refine hleast other hother (hp'.trans ?_)
    rw [eq_append_of_closeAt? hm]
    exact List.prefix_append _ _
  apply hp.eq_of_length_le
  simp only [List.length_append]
  omega

/-- Where nothing is found at the front, no reference begins there. -/
theorem not_beginsAt_of_placeholderAt?_eq_none {d : Delimiters} {t : Text}
    (h : placeholderAt? d t = none) : ¬ BeginsAt d t 0 := by
  rintro ⟨r, ⟨inner, hinner, rfl⟩, hp⟩
  rw [List.drop_zero, List.append_assoc] at hp
  obtain ⟨rest, hrest⟩ := hp
  have hafter : Text.after? d.opening t = some (inner ++ d.closing ++ rest) :=
    Text.after?_eq_some_iff.2 (by rw [← hrest, List.append_assoc])
  have hclose : closeAt? d.closing (inner ++ d.closing ++ rest) = none := by
    simpa [placeholderAt?, hafter] using h
  exact not_closed_of_closeAt?_eq_none hclose inner hinner (List.prefix_append _ _)

/-- The first placeholder is the first piece of the text. -/
theorem isFirst_of_firstPlaceholder? {d : Delimiters} {t gap reference rest : Text}
    (h : firstPlaceholder? d t = some (gap, reference, rest)) : IsFirst d t gap reference rest := by
  fun_induction firstPlaceholder? d t generalizing gap with
  | case1 t r s hr =>
    obtain ⟨rfl, rfl, rfl⟩ : [] = gap ∧ r = reference ∧ s = rest := by simpa using h
    exact ⟨by simpa using eq_append_of_placeholderAt? hr, isShortest_of_placeholderAt? hr, by simp⟩
  | case2 => simp at h
  | case3 c t hnone ih =>
    obtain ⟨⟨g, r, s⟩, hg, he⟩ := Option.map_eq_some_iff.1 h
    obtain ⟨rfl, rfl, rfl⟩ : c :: g = gap ∧ r = reference ∧ s = rest := by simpa using he
    have hfirst := ih hg
    refine ⟨by rw [hfirst.text_eq, List.cons_append], hfirst.isShortest, ?_⟩
    intro k hk
    cases k with
    | zero => exact not_beginsAt_of_placeholderAt?_eq_none hnone
    | succ k =>
      rw [beginsAt_cons_succ]
      exact hfirst.gap_clear k (by simpa using hk)

/-- Where there is no first placeholder, no reference begins anywhere. -/
theorem not_beginsAt_of_firstPlaceholder?_eq_none {d : Delimiters} {t : Text}
    (h : firstPlaceholder? d t = none) (k : Nat) : ¬ BeginsAt d t k := by
  fun_induction firstPlaceholder? d t generalizing k with
  | case1 => simp at h
  | case2 hnone =>
    have hzero := not_beginsAt_of_placeholderAt?_eq_none hnone
    simpa [BeginsAt] using hzero
  | case3 c t hnone ih =>
    cases k with
    | zero => exact not_beginsAt_of_placeholderAt?_eq_none hnone
    | succ k =>
      rw [beginsAt_cons_succ]
      exact ih (by simpa using h) k

/-! ## First pieces -/

/-- A reference begins behind the gap. -/
theorem IsFirst.beginsAt {d : Delimiters} {t gap reference rest : Text}
    (h : IsFirst d t gap reference rest) : BeginsAt d t gap.length := by
  rw [h.text_eq]
  exact h.isShortest.1.beginsAt gap rest

/-- The gap is no longer than the text. -/
theorem IsFirst.length_gap_le {d : Delimiters} {t gap reference rest : Text}
    (h : IsFirst d t gap reference rest) : gap.length ≤ t.length := by
  rw [h.text_eq, List.length_append]
  omega

/-- A text has one first piece. -/
theorem IsFirst.unique {d : Delimiters} {t gap reference rest gap' reference' rest' : Text}
    (h : IsFirst d t gap reference rest) (h' : IsFirst d t gap' reference' rest') :
    gap = gap' ∧ reference = reference' ∧ rest = rest' := by
  -- The reference that ends one gap would begin in the other gap if that were longer.
  have hlen : gap.length = gap'.length := by
    rcases Nat.lt_trichotomy gap.length gap'.length with hlt | heq | hlt
    · exact absurd h.beginsAt (h'.gap_clear _ hlt)
    · exact heq
    · exact absurd h'.beginsAt (h.gap_clear _ hlt)
  have htext : gap ++ (reference ++ rest) = gap' ++ (reference' ++ rest') :=
    h.text_eq.symm.trans h'.text_eq
  obtain ⟨hgap, hback⟩ := List.append_inj htext hlen
  have hp : reference <+: reference' ++ rest' := hback ▸ List.prefix_append reference rest
  have hp' : reference' <+: reference' ++ rest' := List.prefix_append reference' rest'
  have href : reference = reference' := by
    rcases List.prefix_or_prefix_of_prefix hp hp' with hpre | hpre
    · exact h'.isShortest.2 reference h.isShortest.1 hpre
    · exact (h.isShortest.2 reference' h'.isShortest.1 hpre).symm
  subst href
  exact ⟨hgap, rfl, List.append_cancel_left hback⟩

/-- A cut without pieces is leftmost and shortest if no reference begins in the text. -/
theorem leftmostShortest_nil_iff {d : Delimiters} {t tail : Text} :
    LeftmostShortest d t ⟨[], tail⟩ ↔ tail = t ∧ ∀ k ≤ t.length, ¬ BeginsAt d t k := by
  constructor
  · intro h
    have htext : tail = t := by simpa using h.text_eq
    refine ⟨htext, fun k hk => ?_⟩
    simpa using h.tail_clear k (by simpa [htext] using hk)
  · rintro ⟨rfl, hclear⟩
    exact ⟨by simp, by simp, by simp, by simpa using hclear⟩

/-- A cut with a first piece is leftmost and shortest if the piece is the first one of the text and
the other pieces cut what follows it in the same way. -/
theorem leftmostShortest_cons_iff {d : Delimiters} {t tail : Text} {p : Piece}
    {pieces : List Piece} :
    LeftmostShortest d t ⟨p :: pieces, tail⟩ ↔
      ∃ rest, IsFirst d t p.gap p.reference rest ∧ LeftmostShortest d rest ⟨pieces, tail⟩ := by
  -- Positions behind the first piece are those of the rest, moved by the length of the piece.
  have hshift : ∀ (rest : Text) (n k : Nat),
      BeginsAt d (p.gap ++ (p.reference ++ rest)) (p.text.length + n + k) ↔
        BeginsAt d rest (n + k) := by
    intro rest n k
    rw [← List.append_assoc, Nat.add_assoc]
    exact beginsAt_append_left d p.text rest (n + k)
  constructor
  · intro h
    refine ⟨Cut.text ⟨pieces, tail⟩, ?_, ?_⟩
    · refine ⟨?_, h.isShortest p (by simp), ?_⟩
      · rw [← h.text_eq, Cut.text_cons]
      · intro k hk
        simpa using h.gap_clear [] p pieces rfl k hk
    · have ht : t = p.gap ++ (p.reference ++ Cut.text ⟨pieces, tail⟩) := by
        rw [← h.text_eq, Cut.text_cons]
      refine ⟨rfl, fun q hq => h.isShortest q (List.mem_cons_of_mem p hq), ?_, ?_⟩
      · intro before q after hpieces k hk
        have hclear := h.gap_clear (p :: before) q after (by simpa using hpieces) k hk
        rwa [ht, List.flatMap_cons, List.length_append, hshift] at hclear
      · intro k hk
        have hclear := h.tail_clear k hk
        rwa [ht, List.flatMap_cons, List.length_append, hshift] at hclear
  · rintro ⟨rest, hfirst, hrest⟩
    have ht : t = p.gap ++ (p.reference ++ rest) := hfirst.text_eq
    refine ⟨?_, ?_, ?_, ?_⟩
    · rw [ht, ← hrest.text_eq, Cut.text_cons]
    · intro q hq
      rcases List.mem_cons.1 hq with rfl | hq
      · exact hfirst.isShortest
      · exact hrest.isShortest q hq
    · intro before q after hpieces k hk
      cases before with
      | nil =>
        obtain ⟨rfl, rfl⟩ : p = q ∧ pieces = after := by simpa using hpieces
        simpa using hfirst.gap_clear k hk
      | cons x before =>
        obtain ⟨rfl, htail⟩ : p = x ∧ pieces = before ++ q :: after := by simpa using hpieces
        rw [ht, List.flatMap_cons, List.length_append, hshift]
        exact hrest.gap_clear before q after htail k hk
    · intro k hk
      rw [ht, List.flatMap_cons, List.length_append, hshift]
      exact hrest.tail_clear k hk

/-! ## The scanned cut -/

/-- With a delimiter to look for, no reference is empty. -/
theorem IsReference.ne_nil {d : Delimiters} {r : Text} (h : IsReference d r)
    (hd : d.opening ≠ [] ∨ d.closing ≠ []) : r ≠ [] := by
  obtain ⟨inner, -, rfl⟩ := h
  rcases hd with hd | hd <;> simp [hd]

/-- The cut that scanning makes is leftmost and shortest. -/
theorem leftmostShortest_scanned {d : Delimiters} (hd : d.opening ≠ [] ∨ d.closing ≠ [])
    (t : Text) : LeftmostShortest d t (Cut.scanned d t) := by
  fun_induction references d t with
  | case1 t hnone =>
    rw [Cut.scanned_of_none hnone, leftmostShortest_nil_iff]
    exact ⟨rfl, fun k _ => not_beginsAt_of_firstPlaceholder?_eq_none hnone k⟩
  | case2 t gap reference rest hsome hempty =>
    have hfirst := isFirst_of_firstPlaceholder? hsome
    exact absurd (by simpa using hempty) (hfirst.isShortest.1.ne_nil hd)
  | case3 t gap reference rest hsome hne ih =>
    rw [Cut.scanned_of_some hsome (by simpa using hne), leftmostShortest_cons_iff]
    exact ⟨rest, isFirst_of_firstPlaceholder? hsome, ih⟩

/-- There is one leftmost, shortest cut. -/
theorem LeftmostShortest.unique {d : Delimiters} {t : Text} {c c' : Cut}
    (h : LeftmostShortest d t c) (h' : LeftmostShortest d t c') : c = c' := by
  obtain ⟨pieces, tail⟩ := c
  obtain ⟨pieces', tail'⟩ := c'
  induction pieces generalizing t pieces' with
  | nil =>
    obtain ⟨rfl, hclear⟩ := leftmostShortest_nil_iff.1 h
    cases pieces' with
    | nil =>
      obtain ⟨rfl, -⟩ := leftmostShortest_nil_iff.1 h'
      rfl
    | cons p' pieces' =>
      obtain ⟨rest, hfirst, -⟩ := leftmostShortest_cons_iff.1 h'
      exact absurd hfirst.beginsAt (hclear p'.gap.length hfirst.length_gap_le)
  | cons p pieces ih =>
    obtain ⟨rest, hfirst, hrest⟩ := leftmostShortest_cons_iff.1 h
    cases pieces' with
    | nil =>
      obtain ⟨rfl, hclear⟩ := leftmostShortest_nil_iff.1 h'
      exact absurd hfirst.beginsAt (hclear p.gap.length hfirst.length_gap_le)
    | cons p' pieces' =>
      obtain ⟨rest', hfirst', hrest'⟩ := leftmostShortest_cons_iff.1 h'
      obtain ⟨hgap, href, rfl⟩ := hfirst.unique hfirst'
      obtain ⟨rfl, rfl⟩ : pieces = pieces' ∧ tail = tail' := by
        simpa using ih hrest pieces' hrest'
      obtain ⟨gap, reference⟩ := p
      simp_all

/-- Empty delimiters find nothing: the first reference is empty, and it ends the scan. -/
theorem scanned_of_empty_delimiters {d : Delimiters} (ho : d.opening = []) (hc : d.closing = [])
    (t : Text) : Cut.scanned d t = ⟨[], t⟩ := by
  have hclose : closeAt? [] t = some ([], t) := by
    rw [closeAt?.eq_def]
    simp [Text.after?]
  have hfront : placeholderAt? d t = some ([], t) := by
    simp [placeholderAt?, ho, hc, Text.after?, hclose]
  have hfirst : firstPlaceholder? d t = some ([], [], t) := by
    rw [firstPlaceholder?.eq_def]
    simp [hfront]
  exact Cut.scanned_of_empty hfirst

/-- A scan that succeeds finds the references of the one leftmost, shortest cut of the template, in
order; with two empty delimiters it finds nothing.  The path of each placeholder is its reference
without blanks and braces. -/
theorem scan_leftmost_shortest {t : Text} {d : Delimiters} {placeholders : List Placeholder}
    (h : scan t d = .ok placeholders) :
    (d.opening ≠ [] ∨ d.closing ≠ [] →
      ∃ c, LeftmostShortest d t c ∧
        placeholders.map Placeholder.reference = c.pieces.map Piece.reference ∧
        ∀ c', LeftmostShortest d t c' → c' = c) ∧
    (d.opening = [] ∧ d.closing = [] → placeholders = []) ∧
    ∀ p ∈ placeholders,
      p.path = p.reference.filter fun x => !isBlank x && x != '\x7b' && x != '\x7d' := by
  obtain ⟨-, rfl⟩ := Cut.scan_eq_ok_iff.1 h
  refine ⟨?_, ?_, ?_⟩
  · intro hd
    have hscanned := leftmostShortest_scanned hd t
    refine ⟨Cut.scanned d t, hscanned, ?_, fun c' hc' => hc'.unique hscanned⟩
    simp [Cut.placeholders, Piece.placeholder, Placeholder.ofReference, Function.comp_def]
  · rintro ⟨ho, hc⟩
    rw [scanned_of_empty_delimiters ho hc]
    rfl
  · intro p hp
    obtain ⟨piece, -, rfl⟩ := List.mem_map.1 hp
    rfl

/-- Two opening delimiters in a row, and one that its line does not close. -/
theorem scan_leftmost_shortest_unclosed :
    scan "((a)) (b\n( c)".toList ⟨['('], [')']⟩ =
        .ok [⟨"((a)".toList, "((a)".toList⟩, ⟨"(c)".toList, "( c)".toList⟩] ∧
      ∃ c, LeftmostShortest ⟨['('], [')']⟩ "((a)) (b\n( c)".toList c ∧
        ["((a)".toList, "( c)".toList] = c.pieces.map Piece.reference ∧
        ∀ c', LeftmostShortest ⟨['('], [')']⟩ "((a)) (b\n( c)".toList c' → c' = c := by
  have hscan : scan "((a)) (b\n( c)".toList ⟨['('], [')']⟩ =
      .ok [⟨"((a)".toList, "((a)".toList⟩, ⟨"(c)".toList, "( c)".toList⟩] := by cbv
  exact ⟨hscan, (scan_leftmost_shortest hscan).1 (by decide)⟩

end Infill.Template
