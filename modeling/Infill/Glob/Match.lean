import Infill.Glob.Pattern

/-!
# Matching

Which texts a pattern matches.  A run of characters may contain slashes; a run of folders ends behind
a slash or takes the whole rest.
-/

set_option autoImplicit false

namespace Infill.Glob

/-- Whether an item of a class stands for a character. -/
def ClassItem.lists (c : Char) : ClassItem → Bool
  | .single d => c == d
  | .range first last => decide (first ≤ c) && decide (c ≤ last)

/-- Whether some tail of `t`, `t` itself included, satisfies `rest`. -/
def anyTail (rest : Text → Bool) : Text → Bool
  | [] => rest []
  | c :: t => rest (c :: t) || anyTail rest t

/-- Whether the empty tail of `t`, or one that follows a slash, satisfies `rest`. -/
def anyFolderTail (rest : Text → Bool) : Text → Bool
  | [] => rest []
  | c :: t => (c == '/' && rest t) || anyFolderTail rest t

/-- Whether one character satisfies an element that stands for one. -/
def Element.admits (c : Char) : Element → Bool
  | .char d => c == d
  | .anyChar => true
  | .within items => items.any (ClassItem.lists c)
  | .except items => !items.any (ClassItem.lists c)
  | .anyRun => false
  | .anyFolders => false

/-- Whether a pattern matches a whole text. -/
def Pattern.matches : Pattern → Text → Bool
  | [], t => t.isEmpty
  | .anyRun :: rest, t => anyTail (Pattern.matches rest) t
  | .anyFolders :: rest, t => Pattern.matches rest t || anyFolderTail (Pattern.matches rest) t
  | element :: rest, t =>
    match t with
    | [] => false
    | c :: t => element.admits c && Pattern.matches rest t

/-- The text that a pattern without wildcards stands for. -/
def Pattern.literal? : Pattern → Option Text
  | [] => some []
  | .char c :: rest => (literal? rest).map (c :: ·)
  | _ :: _ => none

/-- Whether a component stands for any run of folders. -/
def Pattern.isAnyFolders (p : Pattern) : Bool := p == [.anyFolders]

end Infill.Glob
