import Infill.Document.Header
import Infill.Proofs.Result
import Infill.Proofs.Text.Pieces

/-!
# Fences around a header

A text with a fence in front has exactly one header: what stands up to the first fence behind the opening
one, or up to the end (`Fenced`, `existsUnique_fenced`).  Runs of hyphens count from the left, so that a header
does not end in hyphens that would make a fence with the two that follow.

Splitting takes the sections between all fences apart and joins those behind the header again, which loses
nothing: the body is what stands behind the second fence, with every later fence (`result_split_of_fenced`).
-/

set_option autoImplicit false

namespace Infill.LayoutDocument

/-- How fences cut a text into a header and a body: the header ends at the first fence behind the opening one, or
where the text ends. -/
inductive Fenced : Text → Text → Text → Prop where
  | closed {header body : Text} (h : ¬ fence <:+: header ++ ['-', '-']) :
      Fenced (fence ++ header ++ fence ++ body) header body
  | unclosed {header : Text} (h : ¬ fence <:+: header) : Fenced (fence ++ header) header []

variable {name text rest header body : Text}

/-- Behind the opening fence the header is cut off at the first fence. -/
theorem fenced_iff :
    Fenced (fence ++ rest) header body ↔
      Text.cutAtFirst? fence rest = some (header, body) ∨
        (Text.cutAtFirst? fence rest = none ∧ header = rest ∧ body = []) := by
  rw [Text.cutAtFirst?_eq_some_iff fence_ne_nil, Text.cutAtFirst?_eq_none_iff]
  constructor
  · intro h
    generalize ht : fence ++ rest = t at h
    cases h with
    | closed h =>
      rw [List.append_assoc, List.append_assoc] at ht
      exact .inl ⟨by rw [List.append_cancel_left ht, List.append_assoc], h⟩
    | unclosed h =>
      obtain rfl := List.append_cancel_left ht
      exact .inr ⟨h, rfl, rfl⟩
  · rintro (⟨rfl, h⟩ | ⟨h, rfl, rfl⟩)
    · rw [← List.append_assoc, ← List.append_assoc]
      exact .closed h
    · exact .unclosed h

/-- A text with a fence in front has one header and one body. -/
theorem existsUnique_fenced {t : Text} (h : fence <+: t) :
    ∃ header body, Fenced t header body ∧
      ∀ header' body', Fenced t header' body' → header' = header ∧ body' = body := by
  obtain ⟨rest, rfl⟩ := h
  simp only [fenced_iff]
  cases hcut : Text.cutAtFirst? fence rest with
  | none =>
    refine ⟨rest, [], .inr ⟨rfl, rfl, rfl⟩, ?_⟩
    rintro header body (h | ⟨-, hheader, hbody⟩)
    · cases h
    · exact ⟨hheader, hbody⟩
  | some cut =>
    refine ⟨cut.1, cut.2, .inl rfl, ?_⟩
    rintro header body (h | ⟨h, -⟩)
    · cases h
      exact ⟨rfl, rfl⟩
    · cases h

/-! ## Sections -/

/-- Between the fences of a text stands nothing, then the header, and then what joins to the body. -/
theorem pieces_of_fenced {t : Text} (h : Fenced t header body) :
    ∃ sections, Text.pieces fence fence_ne_nil t = [] :: header :: sections ∧
      Text.joinWith fence sections = body := by
  have hpieces : ∀ rest, Text.pieces fence fence_ne_nil (fence ++ rest) =
      [] :: Text.pieces fence fence_ne_nil rest :=
    fun rest => Text.pieces_of_some (Text.cutAtFirst?_append_self fence rest)
  obtain ⟨rest, rfl⟩ : ∃ rest, t = fence ++ rest := by
    cases h with
    | closed => exact ⟨header ++ fence ++ body, by simp only [List.append_assoc]⟩
    | unclosed => exact ⟨header, rfl⟩
  rw [hpieces]
  rcases fenced_iff.1 h with hcut | ⟨hcut, rfl, rfl⟩
  · refine ⟨Text.pieces fence fence_ne_nil body, ?_, Text.joinWith_pieces _ _ _⟩
    rw [Text.pieces_of_some hcut]
  · refine ⟨[], ?_, rfl⟩
    rw [Text.pieces_of_none hcut]

/-! ## Splitting -/

/-- A text without a fence in front is all body. -/
theorem result_split_of_not_fenced (h : ¬ fence <+: text.trim) :
    (split name text).result = .ok ⟨none, text⟩ := by
  rw [split, if_neg (mt List.isPrefixOf_iff_prefix.1 h)]
  rfl

/-- A text with a fence in front is split into the data of its header and its body, if the header is data. -/
theorem result_split_of_fenced (h : Fenced text.trim header body) :
    (split name text).result =
      ((Json.readText header).mapError (HeaderError.mk name)).map fun data =>
        ⟨some (layoutOf data), body⟩ := by
  have hfront : fence.isPrefixOf text.trim = true := by
    rw [List.isPrefixOf_iff_prefix]
    generalize text.trim = t at h
    cases h with
    | closed => exact ⟨header ++ fence ++ body, by simp only [List.append_assoc]⟩
    | unclosed => exact ⟨header, rfl⟩
  obtain ⟨sections, hpieces, hbody⟩ := pieces_of_fenced h
  rw [split, if_pos hfront, hpieces]
  simp only [List.drop_one, List.tail_cons, List.headD_cons, hbody, Traced.result_bind,
    Traced.result_ofExcept, Traced.result_say]
  cases Json.readText header <;> rfl

/-- A text is all body unless it begins, blanks aside, with a fence.  Then it has one header and one body, and
nothing else stands in it but fences around the header.  The document is refused under its name, for the reason
for which its header is no data, exactly if it is none; otherwise its layout is the data of its header, an
empty object if they are falsy, and its body is the body to the letter. -/
theorem split_at_fences (name text : Text) :
    (¬ fence <+: text.trim → (split name text).result = .ok ⟨none, text⟩) ∧
    (fence <+: text.trim →
      ∃ header body, Fenced text.trim header body ∧
        (∀ header' body', Fenced text.trim header' body' → header' = header ∧ body' = body) ∧
        (∀ e, (split name text).result = .error e ↔
          e.name = name ∧ Json.readText header = .error e.reason) ∧
        ((∃ e, (split name text).result = .error e) ↔ ∀ data, Json.readText header ≠ .ok data) ∧
        ∀ data, Json.readText header = .ok data →
          (split name text).result = .ok ⟨some (if data.isFalsy then .empty else data), body⟩) := by
  refine ⟨result_split_of_not_fenced, fun hfront => ?_⟩
  obtain ⟨header, body, hfenced, hunique⟩ := existsUnique_fenced hfront
  refine ⟨header, body, hfenced, hunique, ?_⟩
  rw [result_split_of_fenced hfenced]
  cases hread : Json.readText header with
  | error reason =>
    refine ⟨fun e => ?_, ?_, fun data h => by cases h⟩
    · constructor
      · rintro h
        cases h
        exact ⟨rfl, rfl⟩
      · rintro ⟨rfl, h⟩
        cases h
        rfl
    · exact iff_of_true ⟨_, rfl⟩ fun data h => by cases h
  | ok data =>
    refine ⟨fun e => ?_, ?_, fun data' h => ?_⟩
    · constructor
      · intro h
        cases h
      · rintro ⟨-, h⟩
        cases h
    · refine iff_of_false ?_ fun h => h data rfl
      rintro ⟨e, h⟩
      cases h
    · cases h
      rfl

/-- Five hyphens are a fence and two hyphens of the header, which is no data then; a falsy header is an empty
layout, and later fences stay in the body. -/
theorem split_at_fences_runs :
    (∃ e, (split ['n'] (fence ++ ['-', '-', '1'])).result = .error e ∧ e.name = ['n']) ∧
      (split ['n'] ([' '] ++ fence ++ ['0'] ++ fence ++ ['b'] ++ fence ++ ['\n'])).result =
        .ok ⟨some .empty, ['b'] ++ fence⟩ := by
  constructor
  · have htrim : (fence ++ ['-', '-', '1']).trim = fence ++ ['-', '-', '1'] := by decide
    obtain ⟨-, hfenced⟩ := split_at_fences ['n'] (fence ++ ['-', '-', '1'])
    rw [htrim] at hfenced
    obtain ⟨header, body, -, hunique, herror, hfails, -⟩ := hfenced (by decide)
    obtain ⟨rfl, -⟩ := hunique ['-', '-', '1'] [] (.unclosed (by decide))
    obtain ⟨e, he⟩ := hfails.2 (by rintro data ⟨⟩)
    exact ⟨e, he, ((herror e).1 he).1⟩
  · have htrim : Text.trim ([' '] ++ fence ++ ['0'] ++ fence ++ ['b'] ++ fence ++ ['\n']) =
        fence ++ ['0'] ++ fence ++ (['b'] ++ fence) := by decide
    obtain ⟨-, hfenced⟩ := split_at_fences ['n'] ([' '] ++ fence ++ ['0'] ++ fence ++ ['b'] ++ fence ++ ['\n'])
    rw [htrim] at hfenced
    obtain ⟨header, body, -, hunique, -, -, hdata⟩ := hfenced (by decide)
    obtain ⟨rfl, rfl⟩ := hunique ['0'] (['b'] ++ fence) (.closed (by decide))
    exact hdata (.number (.integer 0)) rfl

end Infill.LayoutDocument
