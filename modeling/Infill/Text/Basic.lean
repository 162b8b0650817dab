/-!
# Text

Text is a list of characters, so that a law on text is a law on lists.  This file holds the three
questions the library asks of a text: does it start with a given text, where does a given text
occur first, and what are its parts between separators, be they characters or texts.
-/

set_option autoImplicit false

namespace Infill

/-- Text as its characters, in order. -/
abbrev Text := List Char

namespace Text

/-- The text as a string, for messages and for output. -/
def asString (t : Text) : String := String.ofList t

/-- The order of texts, by their characters. -/
def le (a b : Text) : Bool := !decide (b < a)

/-- A text is not above another one if that is not below it. -/
theorem le_iff {a b : Text} : le a b = true ↔ ¬ b < a := by
  rw [le, Bool.not_eq_true', decide_eq_false_iff_not]

/-- What follows `start` in `t`, if `t` begins with `start`. -/
def after? : Text → Text → Option Text
  | [], t => some t
  | _ :: _, [] => none
  | s :: start, c :: t => if s = c then after? start t else none

/-- `t` cut around the first occurrence of `needle`: what stands before it and what follows it. -/
def cutAtFirst? (needle : Text) : Text → Option (Text × Text)
  | [] => (after? needle []).map fun rest => ([], rest)
  | c :: t =>
    match after? needle (c :: t) with
    | some rest => some ([], rest)
    | none => (cutAtFirst? needle t).map fun (before, rest) => (c :: before, rest)

/-- Whether a text stands somewhere in another one. -/
def contains (t needle : Text) : Bool := (cutAtFirst? needle t).isSome

/-- `t` with the first occurrence of `needle` replaced by `value`; without one, `t` itself. -/
def replaceFirst (needle value t : Text) : Text :=
  match cutAtFirst? needle t with
  | some (before, rest) => before ++ value ++ rest
  | none => t

/-- Puts `c` in front of the first of some parts. -/
def consFirst (c : Char) : List Text → List Text
  | [] => [[c]]
  | part :: parts => (c :: part) :: parts

/-- The parts of `t` between the occurrences of `separator`; there is always at least one. -/
def splitOn (separator : Char) : Text → List Text
  | [] => [[]]
  | c :: t => if c = separator then [] :: splitOn separator t else consFirst c (splitOn separator t)

/-- The parts joined into one text, with `separator` between neighbours. -/
def joinWith (separator : Text) (parts : List Text) : Text := List.intercalate separator parts

/-- What stands before and after the last `separator` in `t`, if there is one. -/
def cutAtLast? (separator : Char) : Text → Option (Text × Text)
  | [] => none
  | c :: t =>
    match cutAtLast? separator t with
    | some (before, rest) => some (c :: before, rest)
    | none => if c = separator then some ([], t) else none

/-- What is left behind a text at the front is the rest behind it. -/
theorem after?_eq_some_iff {start t rest : Text} : after? start t = some rest ↔ t = start ++ rest := by
  induction start generalizing t with
  | nil => simp [after?, eq_comm]
  | cons s start ih =>
    cases t with
    | nil => simp [after?]
    | cons c t =>
      by_cases h : s = c
      · simp [after?, h, ih]
      · simp [after?, h, eq_comm]

/-- Cutting around an occurrence loses nothing. -/
theorem eq_append_of_cutAtFirst? {needle t before rest : Text}
    (h : cutAtFirst? needle t = some (before, rest)) : t = before ++ needle ++ rest := by
  induction t generalizing before with
  | nil =>
    obtain ⟨r, hr, he⟩ := Option.map_eq_some_iff.1 h
    obtain ⟨rfl, rfl⟩ : [] = before ∧ r = rest := by simpa using he
    simpa using after?_eq_some_iff.1 hr
  | cons c t ih =>
    rw [cutAtFirst?] at h
    split at h
    · rename_i r hr
      obtain ⟨rfl, rfl⟩ : [] = before ∧ r = rest := by simpa using h
      simpa using after?_eq_some_iff.1 hr
    · obtain ⟨⟨b, r⟩, hb, he⟩ := Option.map_eq_some_iff.1 h
      obtain ⟨rfl, rfl⟩ : c :: b = before ∧ r = rest := by simpa using he
      simp [ih hb]

/-- What stands behind an occurrence is shorter than the whole. -/
theorem length_lt_of_cutAtFirst? {needle t before rest : Text} (hneedle : needle ≠ [])
    (h : cutAtFirst? needle t = some (before, rest)) : rest.length < t.length := by
  have hpos : 0 < needle.length := List.length_pos_iff.2 hneedle
  rw [eq_append_of_cutAtFirst? h, List.length_append, List.length_append]
  omega

/-- The pieces of `t` between the occurrences of `needle`, of which each is looked for behind the one
before; there is always at least one piece. -/
def pieces (needle : Text) (hneedle : needle ≠ []) (t : Text) : List Text :=
  match _h : cutAtFirst? needle t with
  | none => [t]
  | some (before, rest) => before :: pieces needle hneedle rest
  termination_by t.length
  decreasing_by exact length_lt_of_cutAtFirst? hneedle _h

/-- Every text has a part. -/
theorem splitOn_ne_nil (separator : Char) (t : Text) : splitOn separator t ≠ [] := by
  cases t with
  | nil => simp [splitOn]
  | cons c t =>
    by_cases h : c = separator
    · simp [splitOn, h]
    · cases hs : splitOn separator t <;> simp [splitOn, h, hs, consFirst]

end Text
end Infill
