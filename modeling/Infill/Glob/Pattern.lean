import Infill.Text.Basic

/-!
# File patterns

`?` stands for any character, `*` for any run of characters, `**` as a whole component for any run
of folders, and brackets for one character of a class.  This file reads patterns; what they match
is said in `Infill.Glob.Match`.
-/

set_option autoImplicit false

namespace Infill.Glob

/-- An item of a class: a character, or all from one to another. -/
inductive ClassItem where
  | single (c : Char)
  | range (first last : Char)
  deriving DecidableEq, Repr

/-- An element of a pattern. -/
inductive Element where
  | char (c : Char)
  | anyChar
  /-- Any run of characters. -/
  | anyRun
  /-- Any run of whole folders. -/
  | anyFolders
  /-- One character of the class. -/
  | within (items : List ClassItem)
  /-- One character that is not of the class. -/
  | except (items : List ClassItem)
  deriving DecidableEq, Repr

/-- A pattern is read element by element. -/
abbrev Pattern := List Element

/-- What can be wrong with a pattern. -/
inductive PatternFault where
  | tooManyStars
  | foldersNotAlone
  | invalidClass
  deriving DecidableEq, Repr

/-- What is wrong with a pattern, and at which of its characters. -/
structure PatternError where
  position : Nat
  fault : PatternFault
  deriving DecidableEq, Repr

namespace PatternFault

/-- The wording of a fault. -/
def message : PatternFault → String
  | tooManyStars => "wildcards are either regular `*` or recursive `**`"
  | foldersNotAlone => "recursive wildcards must form a single path component"
  | invalidClass => "invalid range pattern"

end PatternFault

/-- The wording of an error, with its place. -/
def PatternError.message (e : PatternError) : String :=
  "Pattern syntax error near position " ++ toString e.position ++ ": " ++ e.fault.message

/-- The items listed between the brackets of a class; `a-z` is a range. -/
def classItems : Text → List ClassItem
  | a :: '-' :: b :: rest => .range a b :: classItems rest
  | a :: rest => .single a :: classItems rest
  | [] => []

/-- What stands before and after the first `]`, of which at least one character before. -/
def cutAtBracket? : Text → Option (Text × Text)
  | [] => none
  | c :: rest =>
    match rest with
    | [] => none
    | d :: tail =>
      if d = ']' then some ([c], tail)
      else (cutAtBracket? rest).map fun (items, rest) => (c :: items, rest)

/-- A class behind its opening bracket, and what follows it. -/
def readClass? (input : Text) : Option (Element × Text) :=
  match input with
  | '!' :: rest => (cutAtBracket? rest).map fun (items, rest) => (.except (classItems items), rest)
  | rest => (cutAtBracket? rest).map fun (items, rest) => (.within (classItems items), rest)

/-- Reads the elements of a pattern.  `position` counts the characters before the input, `previous` is
the last of them, and `read` holds the elements before, last first; each round reads a character. -/
def readElements : Nat → Nat → Option Char → List Element → Text → Except PatternError Pattern
  | 0, _, _, read, _ => .ok read.reverse
  | _ + 1, _, _, read, [] => .ok read.reverse
  | rounds + 1, position, previous, read, c :: rest =>
    if c = '?' then readElements rounds (position + 1) (some c) (.anyChar :: read) rest
    else if c = '*' then
      let stars := (c :: rest).takeWhile (· == '*')
      let after := (c :: rest).dropWhile (· == '*')
      if 2 < stars.length then .error ⟨position + 2, .tooManyStars⟩
      else if stars.length = 2 then
        if previous.all (· == '/') then
          let read := if 1 < read.length ∧ read.head? = some .anyFolders then read else .anyFolders :: read
          match after with
          | [] => .ok read.reverse
          | d :: tail =>
            if d = '/' then readElements rounds (position + 3) (some '/') read tail
            else .error ⟨position + 2, .foldersNotAlone⟩
        else .error ⟨position - 1, .foldersNotAlone⟩
      else readElements rounds (position + 1) (some c) (.anyRun :: read) after
    else if c = '[' then
      match readClass? rest with
      | some (element, tail) =>
        readElements rounds (position + 1 + (rest.length - tail.length)) (some ']') (element :: read) tail
      | none => .error ⟨position, .invalidClass⟩
    else readElements rounds (position + 1) (some c) (.char c :: read) rest

/-- Reads a pattern. -/
def Pattern.parse (pattern : Text) : Except PatternError Pattern :=
  readElements pattern.length 0 none [] pattern

end Infill.Glob
