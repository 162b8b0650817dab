import Infill.Proofs.Document.Fences
import Infill.Proofs.Json.Hyphens
import Infill.Proofs.Json.RoundTrip

/-!
# Documents put together from a header and a body

A header that is data may hold a fence only in a string, and does not end in a hyphen.  So a document that is
put together from a header, fences and a body is split where it was put together, unless a string of the header
holds a fence: then the header is cut off in that string, and the document is refused.
-/

set_option autoImplicit false

namespace Infill.LayoutDocument

variable {header : Text} {v : Json}

/-- No fence that begins in a header of data ends in the fence behind it. -/
theorem not_fence_infix_append (hread : Json.readText header = .ok v) (h : ¬ fence <:+: header) :
    ¬ fence <:+: header ++ ['-', '-'] := by
  have hlast : ∀ front, front ++ ['-'] ≠ header := by
    rintro front rfl
    rw [Json.readText, Utf8.encode_append] at hread
    exact Json.not_read_append_hyphen _ v hread
  rw [List.append_cons, List.infix_concat_iff, List.infix_concat_iff]
  rintro (⟨front, heq⟩ | ⟨front, heq⟩ | hinside)
  · have hend : (front ++ ['-']) ++ ['-', '-'] = header ++ ['-', '-'] := by simpa [fence] using heq
    exact hlast front (List.append_cancel_right hend)
  · have hend : (front ++ ['-'] ++ ['-']) ++ ['-'] = header ++ ['-'] := by simpa [fence] using heq
    exact hlast (front ++ ['-']) (List.append_cancel_right hend)
  · exact h hinside

/-- What stands in front of a fence in a header of data is no data itself. -/
theorem readText_ne_ok_of_fence {front rest : Text} (hread : Json.readText (front ++ fence ++ rest) = .ok v)
    (w : Json) : Json.readText front ≠ .ok w := by
  simp only [Json.readText, Utf8.encode_append, List.append_assoc] at hread
  exact Json.not_read_of_read_append hread w

/-- A fence in a header of data stands in a string. -/
theorem along_ne_outside_of_fence {front rest : Text} (hread : Json.readText (front ++ fence ++ rest) = .ok v) :
    Json.Place.along .outside (Utf8.encode front) ≠ .outside := by
  simp only [Json.readText, Utf8.encode_append, List.append_assoc] at hread
  exact Json.along_ne_outside_of_read hread

/-- Trimming a document takes the blanks in front of it and the blanks behind its body. -/
theorem trim_assembled {front : Text} (hfront : ∀ c ∈ front, isBlank c = true) (header body : Text) :
    Text.trim (front ++ fence ++ header ++ fence ++ body) = fence ++ header ++ fence ++ Text.trimEnd body := by
  have hhyphen : isBlank '-' = false := by decide
  have htrim := Text.trim_append_of_blank hfront hhyphen hhyphen (['-', '-'] ++ header ++ ['-', '-']) body
  simpa [fence] using htrim

/-- A document put together from blanks, a header of data between fences and a body is never split into
anything else: without a fence in its header its layout is the data of the header, an empty object if they are
falsy, and its body the body without the blanks at its end.  With a fence in its header, which is one in a
string, the document is refused under its name. -/
theorem split_assembled (name : Text) {front header : Text} (body : Text) {v : Json}
    (hfront : ∀ c ∈ front, isBlank c = true) (hread : Json.readText header = .ok v) :
    (¬ fence <:+: header →
      (split name (front ++ fence ++ header ++ fence ++ body)).result =
        .ok ⟨some (if v.isFalsy then .empty else v), Text.trimEnd body⟩) ∧
    (fence <:+: header →
      (∃ e, (split name (front ++ fence ++ header ++ fence ++ body)).result = .error e ∧ e.name = name) ∧
        ∀ before rest, header = before ++ fence ++ rest →
          Json.Place.along .outside (Utf8.encode before) ≠ .outside) := by
  have htrim := trim_assembled hfront header body
  constructor
  · intro hinside
    have hfenced : Fenced (Text.trim (front ++ fence ++ header ++ fence ++ body)) header (Text.trimEnd body) := by
      rw [htrim]
      exact .closed (not_fence_infix_append hread hinside)
    rw [result_split_of_fenced hfenced, hread]
    rfl
  · intro hinside
    refine ⟨?_, fun before rest h => along_ne_outside_of_fence (h ▸ hread)⟩
    -- The header is cut off at its first fence.
    have hcut : Text.cutAtFirst? fence header ≠ none := fun hnone => Text.cutAtFirst?_eq_none_iff.1 hnone hinside
    obtain ⟨⟨before, rest⟩, hcut⟩ := Option.ne_none_iff_exists'.1 hcut
    obtain ⟨heq, hfirst⟩ := (Text.cutAtFirst?_eq_some_iff fence_ne_nil).1 hcut
    have hfenced : Fenced (Text.trim (front ++ fence ++ header ++ fence ++ body)) before
        (rest ++ fence ++ Text.trimEnd body) := by
      have hassoc : fence ++ header ++ fence ++ Text.trimEnd body =
          fence ++ before ++ fence ++ (rest ++ fence ++ Text.trimEnd body) := by simp [heq]
      rw [htrim, hassoc]
      exact .closed hfirst
    rw [result_split_of_fenced hfenced]
    cases hbefore : Json.readText before with
    | error reason => exact ⟨_, rfl, rfl⟩
    | ok w => exact absurd hbefore (readText_ne_ok_of_fence (heq ▸ hread) w)

/-- A header of zero is an empty layout, and the blanks behind a body are not kept; a string of hyphens is cut
off at its fence, and the document is refused. -/
theorem split_assembled_string :
    (split ['n'] ([' '] ++ fence ++ ['0'] ++ fence ++ ['b', '\n'])).result = .ok ⟨some .empty, ['b']⟩ ∧
      ∃ e, (split ['n'] (['\n'] ++ fence ++ Json.pretty (.string fence) ++ fence ++ [])).result = .error e ∧
        e.name = ['n'] := by
  constructor
  · have hread : Json.readText ['0'] = .ok (.number (.integer 0)) := rfl
    have hblank : ∀ c ∈ [' '], isBlank c = true := List.all_eq_true.1 rfl
    obtain ⟨hsplit, -⟩ := split_assembled ['n'] ['b', '\n'] hblank hread
    exact hsplit (by decide)
  · have hread : Json.readText (Json.pretty (.string fence)) = .ok (.string fence) :=
      Json.read_pretty (.string _ _) (.string _)
    have hblank : ∀ c ∈ ['\n'], isBlank c = true := List.all_eq_true.1 rfl
    obtain ⟨-, hrefused⟩ := split_assembled ['n'] [] hblank hread
    exact (hrefused (by decide)).1

end Infill.LayoutDocument
