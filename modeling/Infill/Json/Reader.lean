import Infill.Json.Basic
import Infill.Json.ReadError
import Infill.Number.Numeral
import Infill.Text.Utf8

/-!
# Reading JSON

A reader takes a value off the front of some bytes and returns what is left.  Nesting is bounded by
`maxDepth`, which is what the recursion on values counts down; the loops over items and members are
bounded by the number of bytes left, since each round reads at least one.
-/

set_option autoImplicit false

namespace Infill.Json

/-- Takes a value off the front of the input, or says where and why it cannot. -/
abbrev Reader (α : Type) := Bytes → Except Stop (α × Bytes)

/-- Arrays and objects may be nested this deep. -/
def maxDepth : Nat := 127

/-- The blanks between the parts of a JSON text. -/
def isSpace (b : UInt8) : Bool :=
  b == ' '.toUInt8 || b == '\n'.toUInt8 || b == '\t'.toUInt8 || b == '\r'.toUInt8

/-- What follows the space at the front. -/
def skipSpace (input : Bytes) : Bytes := input.dropWhile isSpace

/-- Whether a byte is a decimal digit. -/
def isDigit (b : UInt8) : Bool := '0'.toUInt8 ≤ b && b ≤ '9'.toUInt8

/-- The value of a decimal digit. -/
def digitValue (b : UInt8) : Nat := b.toNat - '0'.toNat

/-! ## Numbers -/

/-- Appends digits to `n` as long as the number stays below `limit`; returns the digits that did not
fit, the first of which would have reached it. -/
def absorb (limit n : Nat) : Bytes → Nat × Bytes
  | [] => (n, [])
  | d :: digits =>
    if 10 * n + digitValue d < limit then absorb limit (10 * n + digitValue d) digits
    else (n, d :: digits)

/-- A number as it was read: `significand * 10 ^ power`, exact unless digits did not fit. -/
structure Scientific where
  negative : Bool
  significand : Nat
  power : Int
  deriving DecidableEq, Repr

/-- The double that a number read from `input` stands for. -/
def Scientific.toDouble (x : Scientific) (rest : Bytes) : Except Stop Double :=
  match (Double.ofNat? x.negative x.significand).bind (Double.scaleByTen? 4 · x.power) with
  | some d => .ok d
  | none => .error (.before .numberOutOfRange rest)

/-- The number whose digits were all read and that has neither fraction nor exponent. -/
def wholeNumber (negative : Bool) (n : Nat) (rest : Bytes) : Except Stop Number :=
  if !negative then .ok (.integer n)
  else if n ≠ 0 ∧ n ≤ Nat.pow 2 63 then .ok (.integer (-(n : Int)))
  else (Scientific.toDouble ⟨true, n, 0⟩ rest).map .double

/-- Reads what follows the `e` of a number. -/
def readExponent (x : Scientific) (input : Bytes) : Except Stop (Number × Bytes) := do
  let (down, input) := match input with
    | b :: rest =>
      if b = '+'.toUInt8 then (false, rest) else if b = '-'.toUInt8 then (true, rest)
      else (false, b :: rest)
    | [] => (false, [])
  match input with
  | [] => .error (.before .endInValue [])
  | b :: rest =>
    if !isDigit b then .error (.before .invalidNumber rest)
    else
      let digits := input.takeWhile isDigit
      let rest := input.dropWhile isDigit
      match absorb (Nat.pow 2 31) 0 digits with
      | (power, []) =>
        let power := if down then x.power - power else x.power + power
        let d ← Scientific.toDouble ⟨x.negative, x.significand, power⟩ rest
        .ok (.double d, rest)
      | (_, _ :: surplus) =>
        if x.significand ≠ 0 ∧ !down then .error (.before .numberOutOfRange (surplus ++ rest))
        else .ok (.double (.zero x.negative), rest)

/-- Reads what follows the digits of a number: its exponent, if it has one. -/
def readAfterDigits (x : Scientific) (input : Bytes) : Except Stop (Number × Bytes) :=
  match input with
  | b :: rest =>
    if b = 'e'.toUInt8 ∨ b = 'E'.toUInt8 then readExponent x rest
    else do
      let d ← x.toDouble input
      .ok (.double d, input)
  | [] => do
    let d ← x.toDouble []
    .ok (.double d, [])

/-- Reads the digits behind a point, of which there has to be one, and what follows them. -/
def readFraction (x : Scientific) (input : Bytes) : Except Stop (Number × Bytes) :=
  let digits := input.takeWhile isDigit
  let rest := input.dropWhile isDigit
  match digits with
  | [] =>
    match input with
    | [] => .error (.before .endInValue [])
    | _ => .error (.within .invalidNumber input)
  | digits =>
    let (significand, surplus) := absorb (Nat.pow 2 64) x.significand digits
    let read : Int := digits.length - surplus.length
    readAfterDigits ⟨x.negative, significand, x.power - read⟩ rest

/-- Reads a number whose sign has been read. -/
def readUnsigned (negative : Bool) (input : Bytes) : Except Stop (Number × Bytes) :=
  match input with
  | [] => .error (.before .endInValue [])
  | first :: rest =>
    if !isDigit first then .error (.before .invalidNumber rest)
    else if first = '0'.toUInt8 ∧ (rest.head?.any isDigit) then .error (.within .invalidNumber rest)
    else
      let digits := input.takeWhile isDigit
      let rest := input.dropWhile isDigit
      let (significand, surplus) := absorb (Nat.pow 2 64) 0 digits
      let x : Scientific := ⟨negative, significand, surplus.length⟩
      match rest with
      | b :: tail =>
        if b = '.'.toUInt8 then readFraction x tail
        else if b = 'e'.toUInt8 ∨ b = 'E'.toUInt8 then readExponent x tail
        else if surplus.isEmpty then do
          let n ← wholeNumber negative significand rest
          .ok (n, rest)
        else readAfterDigits x rest
      | [] =>
        if surplus.isEmpty then do
          let n ← wholeNumber negative significand []
          .ok (n, [])
        else readAfterDigits x []

/-- Reads a number. -/
def readNumber : Reader Number := fun input =>
  match input with
  | b :: rest => if b = '-'.toUInt8 then readUnsigned true rest else readUnsigned false input
  | [] => readUnsigned false []

/-! ## Strings -/

/-- The value of a hexadecimal digit. -/
def hexValue? (b : UInt8) : Option Nat :=
  if isDigit b then some (b.toNat - '0'.toNat)
  else if 'a'.toUInt8 ≤ b && b ≤ 'f'.toUInt8 then some (b.toNat - 'a'.toNat + 10)
  else if 'A'.toUInt8 ≤ b && b ≤ 'F'.toUInt8 then some (b.toNat - 'A'.toNat + 10)
  else none

/-- The code unit written by four hexadecimal digits. -/
def codeUnit? (a b c d : UInt8) : Option Nat := do
  let a ← hexValue? a
  let b ← hexValue? b
  let c ← hexValue? c
  let d ← hexValue? d
  pure (((a * 16 + b) * 16 + c) * 16 + d)

/-- The byte that a one-letter escape stands for. -/
def escapeValue? (b : UInt8) : Option UInt8 :=
  if b = '"'.toUInt8 then some '"'.toUInt8
  else if b = '\\'.toUInt8 then some '\\'.toUInt8
  else if b = '/'.toUInt8 then some '/'.toUInt8
  else if b = 'b'.toUInt8 then some 0x08
  else if b = 'f'.toUInt8 then some 0x0C
  else if b = 'n'.toUInt8 then some 0x0A
  else if b = 'r'.toUInt8 then some 0x0D
  else if b = 't'.toUInt8 then some 0x09
  else none

/-- Reads the bytes of a string up to its closing quote.  `read` holds the bytes before, last first. -/
def readStringBytes (read : Bytes) : Reader Bytes
  | [] => .error (.before .endInString [])
  | b :: rest =>
    if b = '"'.toUInt8 then .ok (read.reverse, rest)
    else if b = '\\'.toUInt8 then
      match rest with
      | [] => .error (.before .endInString [])
      | e :: rest =>
        if e = 'u'.toUInt8 then
          match rest with
          | a :: b :: c :: d :: rest =>
            match codeUnit? a b c d with
            | none => .error (.before .invalidEscape rest)
            | some unit =>
              if 0xDC00 ≤ unit ∧ unit ≤ 0xDFFF then .error (.before .loneSurrogate rest)
              else if 0xD800 ≤ unit ∧ unit ≤ 0xDBFF then
                match rest with
                | [] => .error (.before .endInString [])
                | x :: rest =>
                  if x ≠ '\\'.toUInt8 then .error (.before .unpairedSurrogate rest)
                  else
                    match rest with
                    | [] => .error (.before .endInString [])
                    | y :: rest =>
                      if y ≠ 'u'.toUInt8 then .error (.before .unpairedSurrogate rest)
                      else
                        match rest with
                        | a :: b :: c :: d :: rest =>
                          match codeUnit? a b c d with
                          | none => .error (.before .invalidEscape rest)
                          | some second =>
                            if 0xDC00 ≤ second ∧ second ≤ 0xDFFF then
                              let c := Char.ofNat (0x10000 + (unit - 0xD800) * 0x400 + (second - 0xDC00))
                              readStringBytes ((Utf8.encode [c]).reverse ++ read) rest
                            else .error (.before .loneSurrogate rest)
                        | _ => .error (.before .endInString [])
              else readStringBytes ((Utf8.encode [Char.ofNat unit]).reverse ++ read) rest
          | _ => .error (.before .endInString [])
        else
          match escapeValue? e with
          | some c => readStringBytes (c :: read) rest
          | none => .error (.before .invalidEscape rest)
    else if b < 0x20 then .error (.before .controlCharacter rest)
    else readStringBytes (b :: read) rest

/-- Reads a string whose opening quote has been read. -/
def readString : Reader Text := fun input => do
  let (bytes, rest) ← readStringBytes [] input
  match Utf8.decode? bytes with
  | some s => .ok (s, rest)
  | none => .error (.before .invalidText rest)

/-! ## Values -/

/-- Reads the rest of a word, byte by byte. -/
def readWord : Text → Bytes → Except Stop Bytes
  | [], rest => .ok rest
  | _ :: _, [] => .error (.before .endInValue [])
  | c :: word, b :: rest =>
    if b = c.toUInt8 then readWord word rest else .error (.before .expectedIdent rest)

/-- Reads the items of an array up to its closing bracket.  `first` says that none was read yet. -/
def readItems (item : Reader Json) : Nat → Bool → Reader (List Json)
  | 0, _, input => .error (.before .endInList input)
  | rounds + 1, first, input =>
    match skipSpace input with
    | [] => .error (.before .endInList [])
    | b :: rest =>
      if b = ']'.toUInt8 then .ok ([], rest)
      else if first then do
        let (v, rest) ← item (b :: rest)
        let (vs, rest) ← readItems item rounds false rest
        .ok (v :: vs, rest)
      else if b = ','.toUInt8 then
        match skipSpace rest with
        | [] => .error (.before .endInValue [])
        | c :: tail =>
          if c = ']'.toUInt8 then .error (.before .trailingComma tail)
          else do
            let (v, rest) ← item (c :: tail)
            let (vs, rest) ← readItems item rounds false rest
            .ok (v :: vs, rest)
      else .error (.before .expectedCommaOrBracket rest)

/-- Reads a key whose opening quote has been read, the colon after it, and the value. -/
def readMember (item : Reader Json) : Reader (Text × Json) := fun input => do
  let (key, rest) ← readString input
  match skipSpace rest with
  | [] => .error (.before .endInObject [])
  | b :: rest =>
    if b = ':'.toUInt8 then do
      let (v, rest) ← item rest
      .ok ((key, v), rest)
    else .error (.before .expectedColon rest)

/-- Reads the members of an object up to its closing brace, in the order in which they stand. -/
def readMembers (item : Reader Json) : Nat → Bool → Reader (List (Text × Json))
  | 0, _, input => .error (.before .endInObject input)
  | rounds + 1, first, input =>
    match skipSpace input with
    | [] => .error (.before .endInObject [])
    | b :: rest =>
      if b = '\x7d'.toUInt8 then .ok ([], rest)
      else if first then
        if b = '"'.toUInt8 then do
          let (m, rest) ← readMember item rest
          let (ms, rest) ← readMembers item rounds false rest
          .ok (m :: ms, rest)
        else .error (.before .expectedKey rest)
      else if b = ','.toUInt8 then
        match skipSpace rest with
        | [] => .error (.before .endInValue [])
        | c :: tail =>
          if c = '"'.toUInt8 then do
            let (m, rest) ← readMember item tail
            let (ms, rest) ← readMembers item rounds false rest
            .ok (m :: ms, rest)
          else if c = '\x7d'.toUInt8 then .error (.before .trailingComma tail)
          else .error (.before .expectedKey tail)
      else .error (.before .expectedCommaOrBrace rest)

/-- Reads a value.  `nested` reads the values inside an array or object, where one may still begin. -/
def readValueWith (nested : Option (Reader Json)) : Reader Json := fun input =>
  match skipSpace input with
  | [] => .error (.before .endInValue [])
  | b :: rest =>
    if b = 'n'.toUInt8 then do
      let rest ← readWord ['u', 'l', 'l'] rest
      .ok (.null, rest)
    else if b = 't'.toUInt8 then do
      let rest ← readWord ['r', 'u', 'e'] rest
      .ok (.bool true, rest)
    else if b = 'f'.toUInt8 then do
      let rest ← readWord ['a', 'l', 's', 'e'] rest
      .ok (.bool false, rest)
    else if b = '-'.toUInt8 ∨ isDigit b then do
      let (n, rest) ← readNumber (b :: rest)
      .ok (.number n, rest)
    else if b = '"'.toUInt8 then do
      let (s, rest) ← readString rest
      .ok (.string s, rest)
    else if b = '['.toUInt8 then
      match nested with
      | none => .error (.before .tooDeep rest)
      | some item => do
        let (items, rest) ← readItems item (rest.length + 1) true rest
        .ok (.array items, rest)
    else if b = '\x7b'.toUInt8 then
      match nested with
      | none => .error (.before .tooDeep rest)
      | some item => do
        let (members, rest) ← readMembers item (rest.length + 1) true rest
        .ok (.object (Keyed.ofList members), rest)
    else .error (.before .expectedValue rest)

/-- Reads a value inside which arrays and objects are nested at most `depth` deep. -/
def readValue : Nat → Reader Json
  | 0 => readValueWith none
  | depth + 1 => readValueWith (some (readValue depth))

/-- Reads one value and the blanks around it, to the end of the input. -/
def readDocument (input : Bytes) : Except Stop Json := do
  let (v, rest) ← readValue maxDepth input
  match skipSpace rest with
  | [] => .ok v
  | rest => .error (.within .trailingCharacters rest)

/-- Reads a document that is one value, with space around it. -/
def read (input : Bytes) : Except ReadError Json :=
  (readDocument input).mapError (ReadError.ofStop input)

/-- Reads a text as a document. -/
def readText (text : Text) : Except ReadError Json := read (Utf8.encode text)

end Infill.Json
