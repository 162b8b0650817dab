import Infill.Text.Basic

/-!
# UTF-8

Documents are bytes and templates are text; this file goes from one to the other.  `decode?` accepts
exactly well-formed UTF-8.  `decodeLossy` accepts every byte sequence and writes one replacement
character for each maximal piece that could have begun a character but did not.
-/

set_option autoImplicit false

namespace Infill

/-- Bytes, as they are stored. -/
abbrev Bytes := List UInt8

namespace Utf8

/-- The bytes of a text. -/
def encode (t : Text) : Bytes := t.flatMap String.utf8EncodeChar

/-- A byte that continues a character, `10xxxxxx`. -/
def isTail (b : UInt8) : Bool := 0x80 ≤ b && b ≤ 0xBF

/-- Whether `b` may be the second byte of a three-byte character that begins with `a`. -/
def isSecondOfThree (a b : UInt8) : Bool :=
  if a = 0xE0 then 0xA0 ≤ b && b ≤ 0xBF
  else if a = 0xED then 0x80 ≤ b && b ≤ 0x9F
  else isTail b

/-- Whether `b` may be the second byte of a four-byte character that begins with `a`. -/
def isSecondOfFour (a b : UInt8) : Bool :=
  if a = 0xF0 then 0x90 ≤ b && b ≤ 0xBF
  else if a = 0xF4 then 0x80 ≤ b && b ≤ 0x8F
  else isTail b

/-- The six low bits of a continuation byte. -/
def low (b : UInt8) : Nat := b.toNat % 64

/-- How a byte sequence begins: with a character, or with a number of bytes that cannot be one. -/
inductive Start where
  /-- The first character, and how many bytes it takes. -/
  | char (c : Char) (width : Nat)
  /-- The length of the longest piece at the front that could have begun a character. -/
  | bad (width : Nat)
  deriving DecidableEq, Repr

/-- How the sequence `a :: rest` begins. -/
def start (a : UInt8) (rest : Bytes) : Start :=
  if a < 0x80 then .char (Char.ofNat a.toNat) 1
  else if 0xC2 ≤ a && a ≤ 0xDF then
    match rest with
    | b :: _ => if isTail b then .char (Char.ofNat ((a.toNat % 32) * 64 + low b)) 2 else .bad 1
    | [] => .bad 1
  else if 0xE0 ≤ a && a ≤ 0xEF then
    match rest with
    | b :: rest =>
      if isSecondOfThree a b then
        match rest with
        | c :: _ =>
          if isTail c then .char (Char.ofNat (((a.toNat % 16) * 64 + low b) * 64 + low c)) 3
          else .bad 2
        | [] => .bad 2
      else .bad 1
    | [] => .bad 1
  else if 0xF0 ≤ a && a ≤ 0xF4 then
    match rest with
    | b :: rest =>
      if isSecondOfFour a b then
        match rest with
        | c :: rest =>
          if isTail c then
            match rest with
            | d :: _ =>
              if isTail d then
                .char (Char.ofNat ((((a.toNat % 8) * 64 + low b) * 64 + low c) * 64 + low d)) 4
              else .bad 3
            | [] => .bad 3
          else .bad 2
        | [] => .bad 2
      else .bad 1
    | [] => .bad 1
  else .bad 1

/-- The character written in place of bytes that are not UTF-8. -/
def replacement : Char := '\uFFFD'

/-- The text of well-formed bytes, and nothing for others. -/
def decode? (bytes : Bytes) : Option Text :=
  match bytes with
  | [] => some []
  | a :: rest =>
    match start a rest with
    | .char c width => (decode? (rest.drop (width - 1))).map (c :: ·)
    | .bad _ => none
  termination_by bytes.length
  decreasing_by
    simp only [List.length_drop, List.length_cons]
    omega

/-- The text of any bytes: a replacement character stands for each piece that is not UTF-8. -/
def decodeLossy (bytes : Bytes) : Text :=
  match bytes with
  | [] => []
  | a :: rest =>
    match start a rest with
    | .char c width => c :: decodeLossy (rest.drop (width - 1))
    | .bad width => replacement :: decodeLossy (rest.drop (width - 1))
  termination_by bytes.length
  decreasing_by
    all_goals simp only [List.length_drop, List.length_cons]
    all_goals omega

end Utf8
end Infill
