import Infill.Text.Basic

/-!
# Blank characters

The characters with the Unicode property `White_Space`, and trimming by them.  The blank bytes
are the ASCII blanks that may stand alone in an otherwise empty document.
-/

set_option autoImplicit false

namespace Infill

/-- The twenty-five characters with the Unicode property `White_Space`. -/
def isBlank (c : Char) : Bool :=
  let n := c.toNat
  (9 ≤ n && n ≤ 13) || n == 0x20 || n == 0x85 || n == 0xA0 || n == 0x1680
    || (0x2000 ≤ n && n ≤ 0x200A) || n == 0x2028 || n == 0x2029 || n == 0x202F || n == 0x205F
    || n == 0x3000

/-- Space, tab, line feed, form feed and carriage return, as bytes. -/
def isBlankByte (b : UInt8) : Bool :=
  b == 0x20 || b == 0x09 || b == 0x0A || b == 0x0C || b == 0x0D

namespace Text

/-- The text without blanks at its front. -/
def trimStart (t : Text) : Text := t.dropWhile isBlank

/-- The text without blanks at its end. -/
def trimEnd (t : Text) : Text := (t.reverse.dropWhile isBlank).reverse

/-- The text without blanks around it. -/
def trim (t : Text) : Text := trimEnd (trimStart t)

end Text

end Infill
