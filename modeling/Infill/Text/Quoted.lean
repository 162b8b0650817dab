import Infill.Text.Basic
import Infill.Text.Hidden

/-!
# Texts in a log

How a text is shown in a log.  Between quotes there are escapes for quotes, backslashes and characters
that cannot be seen.  In a message there are escapes only for characters that steer a terminal.
-/

set_option autoImplicit false

namespace Infill.Text

/-- The escape of a character by its number. -/
def numberEscape (c : Char) : Text :=
  ['\\', 'u', '\x7b'] ++ Nat.toDigits 16 c.toNat ++ ['\x7d']

/-- A character as it is shown, with an escape if it could not be seen. -/
def escapeHidden (c : Char) : Text :=
  if c = '\x00' then ['\\', '0']
  else if c = '\t' then ['\\', 't']
  else if c = '\r' then ['\\', 'r']
  else if c = '\n' then ['\\', 'n']
  else if c = '"' ∨ c = '\'' ∨ c = '\\' then ['\\', c]
  else if c ≠ ' ' ∧ isHidden c then numberEscape c
  else [c]

/-- A text between quotation marks, as it is shown. -/
def quoted (t : Text) : Text := '"' :: (t.flatMap escapeHidden ++ ['"'])

/-- A text that may be missing, as it is shown. -/
def quotedOption : Option Text → Text
  | none => "None".toList
  | some t => "Some(".toList ++ quoted t ++ [')']

/-- A character in a message: bell, backspace, form feed, escape, delete and the controls behind ASCII
are not written as they are. -/
def escapeControl (c : Char) : Text :=
  if c = '\x07' then ['\\', 'x', '0', '7']
  else if c = '\x08' then ['\\', 'x', '0', '8']
  else if c = '\x0c' then ['\\', 'x', '0', 'c']
  else if c = '\x1b' then ['\\', 'x', '1', 'b']
  else if c = '\x7f' then ['\\', 'x', '7', 'f']
  else if 0x80 ≤ c.toNat ∧ c.toNat ≤ 0x9F then numberEscape c
  else [c]

/-- A message as it is written to a log. -/
def logged (t : Text) : Text := t.flatMap escapeControl

end Infill.Text
