import Infill.Json.Basic
import Infill.Number.Shortest

/-!
# Writing JSON

A value is written on one line (`compact`) or over many, two spaces a level (`pretty`).  Strings
escape the quote, the backslash and the control characters only; doubles are written with the
fewest digits that read back.
-/

set_option autoImplicit false

namespace Infill.Json

/-- The last hexadecimal digit of a number. -/
def hexDigit (n : Nat) : Char := Nat.digitChar (n % 16)

/-- A character as it stands inside a written string. -/
def escapeChar (c : Char) : Text :=
  if c = '"' then ['\\', '"']
  else if c = '\\' then ['\\', '\\']
  else if c = '\x08' then ['\\', 'b']
  else if c = '\x0c' then ['\\', 'f']
  else if c = '\n' then ['\\', 'n']
  else if c = '\r' then ['\\', 'r']
  else if c = '\t' then ['\\', 't']
  else if c.toNat < 0x20 then ['\\', 'u', '0', '0', hexDigit (c.toNat / 16), hexDigit c.toNat]
  else [c]

/-- A text between quotation marks. -/
def quoted (s : Text) : Text := '"' :: (s.flatMap escapeChar ++ ['"'])

/-- The least exponent of ten that is written positionally. -/
def minPositional : Int := -5

/-- The greatest exponent of ten that is written positionally. -/
def maxPositional : Int := 15

/-- A decimal in JSON: positional from `10 ^ (-5)` below `10 ^ 16`, always with a fraction, and
otherwise with a signed exponent. -/
def decimalText (d : Shortest.Decimal) : Text :=
  let count : Int := d.digits.length
  if d.exponent < minPositional ∨ maxPositional < d.exponent then
    let fraction := match d.digits.drop 1 with
      | [] => []
      | rest => '.' :: rest
    let sign := if d.exponent < 0 then '-' else '+'
    d.digits.take 1 ++ fraction ++ 'e' :: sign :: Numeral.ofNat d.exponent.natAbs
  else if d.exponent < 0 then
    ['0', '.'] ++ List.replicate (-d.exponent - 1).toNat '0' ++ d.digits
  else if count ≤ d.exponent + 1 then
    d.digits ++ List.replicate (d.exponent + 1 - count).toNat '0' ++ ['.', '0']
  else
    d.digits.take (d.exponent + 1).toNat ++ '.' :: d.digits.drop (d.exponent + 1).toNat

/-- A double by its shortest digits, with a point or an exponent. -/
def doubleText (x : Double) : Text :=
  let sign := if x.negative then ['-'] else []
  if x.isZero then sign ++ ['0', '.', '0'] else sign ++ decimalText (Shortest.ofDouble x)

/-- A number as it is written; a double always shows that it is one. -/
def numberText : Number → Text
  | .integer n => Numeral.ofInt n
  | .double x => doubleText x

/-- The word for a truth value. -/
def boolText (b : Bool) : Text := if b then ['t', 'r', 'u', 'e'] else ['f', 'a', 'l', 's', 'e']

/-- The word for null. -/
def nullText : Text := ['n', 'u', 'l', 'l']

mutual

/-- The value on one line, without blanks. -/
def compact : Json → Text
  | .null => nullText
  | .bool b => boolText b
  | .number n => numberText n
  | .string s => quoted s
  | .array items => '[' :: (Text.joinWith [','] (compactItems items) ++ [']'])
  | .object members => '\x7b' :: (Text.joinWith [','] (compactMembers members) ++ ['\x7d'])

/-- The items of an array, each without spaces. -/
def compactItems : List Json → List Text
  | [] => []
  | item :: items => compact item :: compactItems items

/-- The members of an object, each without spaces. -/
def compactMembers : List (Text × Json) → List Text
  | [] => []
  | (key, value) :: members => (quoted key ++ ':' :: compact value) :: compactMembers members

end

/-- A new line indented by `level` steps of two spaces. -/
def newLine (level : Nat) : Text := '\n' :: List.replicate (2 * level) ' '

/-- Written parts between brackets, one a line; without parts the brackets touch. -/
def block (first last : Char) (level : Nat) (parts : List Text) : Text :=
  match parts with
  | [] => [first, last]
  | parts =>
    first :: (newLine (level + 1) ++ Text.joinWith (',' :: newLine (level + 1)) parts
      ++ newLine level ++ [last])

mutual

/-- The value over several lines, starting at the given level of indentation. -/
def prettyAt (level : Nat) : Json → Text
  | .null => nullText
  | .bool b => boolText b
  | .number n => numberText n
  | .string s => quoted s
  | .array items => block '[' ']' level (prettyItems (level + 1) items)
  | .object members => block '\x7b' '\x7d' level (prettyMembers (level + 1) members)

/-- The items of an array, each over its own lines. -/
def prettyItems (level : Nat) : List Json → List Text
  | [] => []
  | item :: items => prettyAt level item :: prettyItems level items

/-- The members of an object, each over its own lines. -/
def prettyMembers (level : Nat) : List (Text × Json) → List Text
  | [] => []
  | (key, value) :: members =>
    (quoted key ++ ':' :: ' ' :: prettyAt level value) :: prettyMembers level members

end

/-- A value over several lines, each level indented further. -/
def pretty (value : Json) : Text := prettyAt 0 value

end Infill.Json
