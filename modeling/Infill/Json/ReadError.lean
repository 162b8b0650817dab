import Infill.Text.Utf8

/-!
# Errors of reading JSON

What can be wrong with a JSON text, how each fault is worded, and where it is.  Lines count from
one; the column is the number of bytes read on the line, so it is zero just after a line break.
-/

set_option autoImplicit false

namespace Infill.Json

/-- What was met in place of JSON. -/
inductive Fault where
  | endInValue
  | endInString
  | endInList
  | endInObject
  | expectedColon
  | expectedCommaOrBracket
  | expectedCommaOrBrace
  | expectedIdent
  | expectedValue
  | expectedKey
  | trailingComma
  | trailingCharacters
  | invalidNumber
  | numberOutOfRange
  | invalidEscape
  | loneSurrogate
  | unpairedSurrogate
  | controlCharacter
  | invalidText
  | tooDeep
  deriving DecidableEq, Repr

namespace Fault

/-- The wording of a fault. -/
def message : Fault → String
  | endInValue => "EOF while parsing a value"
  | endInString => "EOF while parsing a string"
  | endInList => "EOF while parsing a list"
  | endInObject => "EOF while parsing an object"
  | expectedColon => "expected `:`"
  | expectedCommaOrBracket => "expected `,` or `]`"
  | expectedCommaOrBrace => "expected `,` or `\x7d`"
  | expectedIdent => "expected ident"
  | expectedValue => "expected value"
  | expectedKey => "key must be a string"
  | trailingComma => "trailing comma"
  | trailingCharacters => "trailing characters"
  | invalidNumber => "invalid number"
  | numberOutOfRange => "number out of range"
  | invalidEscape => "invalid escape"
  | loneSurrogate => "lone leading surrogate in hex escape"
  | unpairedSurrogate => "unexpected end of hex escape"
  | controlCharacter => "control character (\\u0000-\\u001F) found while parsing a string"
  | invalidText => "invalid unicode code point"
  | tooDeep => "recursion limit exceeded"

end Fault

/-- Where reading stopped: the fault, and how many bytes of the input lie beyond it. -/
structure Stop where
  fault : Fault
  beyond : Nat
  deriving DecidableEq, Repr

namespace Stop

/-- A fault noticed with `rest` still to be read. -/
def before (fault : Fault) (rest : Bytes) : Stop := ⟨fault, rest.length⟩

/-- A fault of the first byte of `rest`, which counts as read. -/
def within (fault : Fault) (rest : Bytes) : Stop := ⟨fault, rest.length - 1⟩

end Stop

/-- A fault with its place in the text. -/
structure ReadError where
  fault : Fault
  line : Nat
  column : Nat
  deriving DecidableEq, Repr

namespace ReadError

/-- The place of a stop in the text it stopped in. -/
def ofStop (input : Bytes) (stop : Stop) : ReadError :=
  let consumed := input.take (input.length - stop.beyond)
  let newline : UInt8 := '\n'.toUInt8
  ⟨stop.fault, 1 + consumed.count newline, (consumed.reverse.takeWhile (· != newline)).length⟩

/-- The wording of an error, with its place. -/
def message (e : ReadError) : String :=
  e.fault.message ++ " at line " ++ toString e.line ++ " column " ++ toString e.column

end ReadError
end Infill.Json
