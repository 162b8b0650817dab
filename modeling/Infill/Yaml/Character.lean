import Infill.Text.Basic

/-!
# Characters of YAML

The classes of characters that YAML tells apart, and where in a stream a character stands.
-/

set_option autoImplicit false

namespace Infill.Yaml

/-- A place in a stream: its line, how many characters of that line stand in front of it, and how many
bytes they take. -/
structure Mark where
  line : Nat
  column : Nat
  offset : Nat
  deriving DecidableEq, Repr

namespace Mark

/-- The place at the front of a text. -/
def start : Mark := ⟨0, 0, 0⟩

/-- The place behind some ASCII characters on the same line. -/
def skip (m : Mark) (n : Nat) : Mark := ⟨m.line, m.column + n, m.offset + n⟩

/-- The place behind a character on the same line. -/
def past (m : Mark) (c : Char) : Mark := ⟨m.line, m.column + 1, m.offset + c.utf8Size⟩

/-- The place behind some characters on the same line. -/
def pastAll (m : Mark) (t : Text) : Mark := t.foldl past m

/-- The place behind a line break. -/
def newLine (m : Mark) : Mark := ⟨m.line + 1, 0, 0⟩

end Mark

/-- Characters that may stand in a stream. -/
def isPrintable (c : Char) : Bool :=
  let n := c.toNat
  n == 0x09 || n == 0x0A || n == 0x0D || (0x20 ≤ n && n ≤ 0x7E) || n == 0x85
    || (0xA0 ≤ n && n ≤ 0xD7FF) || (0xE000 ≤ n && n ≤ 0xFFFD) || 0x10000 ≤ n

/-- A mark of the byte order, which may stand in front of a line. -/
def byteOrderMark : Char := '\uFEFF'

/-- Whether a character breaks a line. -/
def isBreak (c : Char) : Bool :=
  c == '\n' || c == '\r' || c == '\u0085' || c == '\u2028' || c == '\u2029'

/-- Whether a character is a space or a tab. -/
def isGap (c : Char) : Bool := c == ' ' || c == '\t'

/-- How a line break reads: separators of lines and paragraphs stay, all others are line feeds. -/
def breakText (c : Char) : Text := if c == '\u2028' || c == '\u2029' then [c] else ['\n']

/-- The line break at the front of a text: how it reads, and what follows. -/
def takeBreak? : Text → Option (Text × Text)
  | '\r' :: '\n' :: rest => some (['\n'], rest)
  | c :: rest => if isBreak c then some (breakText c, rest) else none
  | [] => none

/-- Whether a text is at its end or goes on with a break, a space or a tab. -/
def endsWord : Text → Bool
  | [] => true
  | c :: _ => isBreak c || isGap c

/-- Letters, digits, hyphens and underscores of ASCII. -/
def isWordChar (c : Char) : Bool := c.isAlphanum || c == '-' || c == '_'

/-- The brackets and the comma of flow collections. -/
def isFlowMark (c : Char) : Bool :=
  c == ',' || c == '[' || c == ']' || c == '\x7b' || c == '\x7d'

/-- Whether a text goes on with the mark of a document's start or end. -/
def isDocumentMark : Text → Bool
  | '-' :: '-' :: '-' :: rest => endsWord rest
  | '.' :: '.' :: '.' :: rest => endsWord rest
  | _ => false

/-- The value of a hexadecimal digit. -/
def hexValue? (c : Char) : Option Nat :=
  if c.isDigit then some (c.toNat - '0'.toNat)
  else if 'a' ≤ c ∧ c ≤ 'f' then some (c.toNat - 'a'.toNat + 10)
  else if 'A' ≤ c ∧ c ≤ 'F' then some (c.toNat - 'A'.toNat + 10)
  else none

end Infill.Yaml
