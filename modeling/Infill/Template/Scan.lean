import Infill.Template.Delimiters
import Infill.Text.Blank

/-!
# Placeholders

A placeholder is an opening delimiter, some characters that are not line breaks, and a closing
delimiter.  Scanning goes from left to right: it takes the first place where a placeholder begins
and the shortest placeholder there, and goes on behind it.
-/

set_option autoImplicit false

namespace Infill.Template

/-- A placeholder of a template: the dotted path it asks for, and how it is written. -/
structure Placeholder where
  path : Text
  reference : Text
  deriving DecidableEq, Repr

namespace Placeholder

/-- Whether a character of a reference belongs to its path: blanks and braces do not. -/
def isPathChar (c : Char) : Bool := !isBlank c && c != '\x7b' && c != '\x7d'

/-- The placeholder written as `reference`. -/
def ofReference (reference : Text) : Placeholder := ⟨reference.filter isPathChar, reference⟩

end Placeholder

/-- The front of `t` up to and with the first `closing` on its line, and what follows. -/
def closeAt? (closing : Text) (t : Text) : Option (Text × Text) :=
  match Text.after? closing t with
  | some rest => some (closing, rest)
  | none =>
    match t with
    | [] => none
    | c :: t => if c = '\n' then none else (closeAt? closing t).map fun (m, rest) => (c :: m, rest)

/-- The shortest placeholder at the very front of `t`, and what follows it. -/
def placeholderAt? (d : Delimiters) (t : Text) : Option (Text × Text) :=
  (Text.after? d.opening t).bind fun rest =>
    (closeAt? d.closing rest).map fun (m, rest) => (d.opening ++ m, rest)

/-- `t` cut around its first placeholder: the text before it, its reference, and what follows. -/
def firstPlaceholder? (d : Delimiters) (t : Text) : Option (Text × Text × Text) :=
  match placeholderAt? d t with
  | some (reference, rest) => some ([], reference, rest)
  | none =>
    match t with
    | [] => none
    | c :: t => (firstPlaceholder? d t).map fun (gap, reference, rest) => (c :: gap, reference, rest)

/-- What is found and what is left are the whole text. -/
theorem eq_append_of_closeAt? {closing t m rest : Text} (h : closeAt? closing t = some (m, rest)) :
    t = m ++ rest := by
  fun_induction closeAt? closing t generalizing m with
  | case1 t r hr =>
    obtain ⟨rfl, rfl⟩ : closing = m ∧ r = rest := by simpa using h
    exact Text.after?_eq_some_iff.1 hr
  | case2 => simp at h
  | case3 => simp at h
  | case4 c t _ _ ih =>
    obtain ⟨⟨m', r'⟩, hm, he⟩ := Option.map_eq_some_iff.1 h
    obtain ⟨rfl, rfl⟩ : c :: m' = m ∧ r' = rest := by simpa using he
    simp [ih hm]

/-- A placeholder at the front is the front. -/
theorem eq_append_of_placeholderAt? {d : Delimiters} {t reference rest : Text}
    (h : placeholderAt? d t = some (reference, rest)) : t = reference ++ rest := by
  obtain ⟨r, hr, h⟩ := Option.bind_eq_some_iff.1 h
  obtain ⟨⟨m, r'⟩, hm, he⟩ := Option.map_eq_some_iff.1 h
  obtain ⟨rfl, rfl⟩ : d.opening ++ m = reference ∧ r' = rest := by simpa using he
  rw [Text.after?_eq_some_iff.1 hr, eq_append_of_closeAt? hm, List.append_assoc]

/-- Cutting around the first placeholder loses nothing. -/
theorem eq_append_of_firstPlaceholder? {d : Delimiters} {t gap reference rest : Text}
    (h : firstPlaceholder? d t = some (gap, reference, rest)) : t = gap ++ reference ++ rest := by
  fun_induction firstPlaceholder? d t generalizing gap with
  | case1 t r s hr =>
    obtain ⟨rfl, rfl, rfl⟩ : [] = gap ∧ r = reference ∧ s = rest := by simpa using h
    simpa using eq_append_of_placeholderAt? hr
  | case2 => simp at h
  | case3 c t _ ih =>
    obtain ⟨⟨g, r, s⟩, hg, he⟩ := Option.map_eq_some_iff.1 h
    obtain ⟨rfl, rfl, rfl⟩ : c :: g = gap ∧ r = reference ∧ s = rest := by simpa using he
    simp [ih hg]

/-- The references of a template, from left to right.  A pair of empty delimiters finds none. -/
def references (d : Delimiters) (t : Text) : List Text :=
  match _h : firstPlaceholder? d t with
  | none => []
  | some (_, reference, rest) =>
    if reference.isEmpty then [] else reference :: references d rest
  termination_by t.length
  decreasing_by
    rename_i hne
    have hlen := congrArg List.length (eq_append_of_firstPlaceholder? _h)
    have : 0 < reference.length := List.length_pos_iff.2 (by simpa using hne)
    simp only [List.length_append] at hlen
    omega

/-- A search whose delimiters are too long. -/
inductive ScanError where
  | tooLong
  deriving DecidableEq, Repr

/-- The wording of an error. -/
def ScanError.message : ScanError → String
  | tooLong =>
    "Compiled regex exceeds size limit of " ++ toString Delimiters.searchLimit ++ " bytes."

/-- The placeholders of a template, from left to right; a reference that occurs twice counts twice. -/
def scan (t : Text) (d : Delimiters) : Except ScanError (List Placeholder) :=
  if d.fits then .ok ((references d t).map Placeholder.ofReference) else .error .tooLong

end Infill.Template
