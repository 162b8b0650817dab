import Infill.Text.Utf8
import Infill.Yaml.Character
import Infill.Yaml.Scalar
import Infill.Yaml.Token

/-!
# Anchors, tags and directives

The pieces of a stream that say something about a node or about a document.  Each reader returns what
it read, the place behind it, and what follows.
-/

set_option autoImplicit false

namespace Infill.Yaml

/-- Reads the name of an anchor or of an alias, behind its indicator. -/
def readAnchorName (m : Mark) (t : Text) : Except Fault (Text × Mark × Text) :=
  let name := t.takeWhile isWordChar
  let rest := t.dropWhile isWordChar
  let ended := endsWord rest || rest.head?.any fun c => "?:,]\x7d%@\x60".toList.elem c
  if name.isEmpty || !ended then .error .badAnchor else .ok (name, m.skip name.length, rest)

/-! ## Tags -/

/-- Characters of a tag; the brackets and the comma only where the tag is written in full. -/
def isTagChar (inFull : Bool) (c : Char) : Bool :=
  isWordChar c || ";/?:@&=+$.%!~*'()".toList.elem c || (inFull && ",[]".toList.elem c)

/-- How many bytes of the form `10xxxxxx` belong behind a byte of a tag. -/
def tailsBehind? (b : UInt8) : Option Nat :=
  if b < 0x80 then some 0
  else if b &&& 0xE0 = 0xC0 then some 1
  else if b &&& 0xF0 = 0xE0 then some 2
  else if b &&& 0xF8 = 0xF0 then some 3
  else none

/-- The bytes of a tag, in which `%` and two hexadecimal digits stand for a byte.  Of the bytes that are
written so, `due` are still to come that belong behind an earlier one. -/
def unescapeTag? (due : Nat) : Text → Option Bytes
  | [] => if due = 0 then some [] else none
  | '%' :: a :: b :: rest => do
    let byte := UInt8.ofNat (16 * (← hexValue? a) + (← hexValue? b))
    let due ← if due = 0 then tailsBehind? byte else if Utf8.isTail byte then some (due - 1) else none
    return byte :: (← unescapeTag? due rest)
  | c :: rest =>
    if c = '%' ∨ due ≠ 0 then none else (unescapeTag? 0 rest).map (Utf8.encode [c] ++ ·)

/-- Reads the characters of a tag behind a handle that was already read.  A zero byte ends the tag, and
what is written behind it is passed over. -/
def readTagText (inFull : Bool) (head : Text) (m : Mark) (t : Text) :
    Except Fault (Bytes × Mark × Text) :=
  let written := t.takeWhile (isTagChar inFull)
  if head.isEmpty && written.isEmpty then .error .badTag
  else
    match unescapeTag? 0 written with
    | none => .error .badTag
    | some bytes =>
      .ok ((Utf8.encode (head.drop 1) ++ bytes).takeWhile (· != 0), m.skip written.length,
        t.dropWhile (isTagChar inFull))

/-- Reads the handle of a tag: an exclamation mark, perhaps a name, and perhaps a second mark. -/
def readHandle (m : Mark) (t : Text) : Except Fault (Text × Mark × Text) :=
  match t with
  | '!' :: rest =>
    let name := rest.takeWhile isWordChar
    let behind := rest.dropWhile isWordChar
    if behind.head? = some '!' then
      .ok ('!' :: (name ++ ['!']), m.skip (name.length + 2), behind.drop 1)
    else .ok ('!' :: name, m.skip (name.length + 1), behind)
  | _ => .error .badTag

/-- Whether a handle has its second exclamation mark. -/
def isClosedHandle (handle : Text) : Bool := 1 < handle.length && handle.getLast? == some '!'

/-- Reads a tag, without looking at what ends it: its handle, which is empty for a tag that is written in
full and for `!` alone, and its suffix. -/
def readTagParts (m : Mark) (t : Text) : Except Fault (Token × Mark × Text) := do
  match t with
  | '!' :: '<' :: rest =>
    let (text, m, rest) ← readTagText true [] (m.skip 2) rest
    match rest with
    | '>' :: rest => .ok (.tag [] text, m.skip 1, rest)
    | _ => .error .badTag
  | _ =>
    let (handle, m, rest) ← readHandle m t
    if isClosedHandle handle then
      let (suffix, m, rest) ← readTagText false [] m rest
      .ok (.tag handle suffix, m, rest)
    else
      let (suffix, m, rest) ← readTagText false handle m rest
      .ok (if suffix.isEmpty then .tag [] (Utf8.encode ['!']) else .tag ['!'] suffix, m, rest)

/-- Reads a tag, behind which a word has to end. -/
def readTag (inFlow : Bool) (m : Mark) (t : Text) : Except Fault (Token × Mark × Text) := do
  let (token, m, rest) ← readTagParts m t
  if endsWord rest || (inFlow && rest.head? == some ',') then .ok (token, m, rest)
  else .error .badTag

/-! ## Directives -/

/-- Reads a number of at most nine digits. -/
def readVersionNumber (m : Mark) (t : Text) : Except Fault (Nat × Mark × Text) :=
  let digits := t.takeWhile Char.isDigit
  if digits.isEmpty || 9 < digits.length then .error .badDirective
  else .ok (digits.foldl (fun n d => 10 * n + (d.toNat - '0'.toNat)) 0, m.skip digits.length,
    t.dropWhile Char.isDigit)

/-- Goes past spaces and tabs. -/
def skipGaps (m : Mark) (t : Text) : Mark × Text :=
  let rest := t.dropWhile isGap
  (m.skip (t.length - rest.length), rest)

/-- Reads what the directive of a version says. -/
def readVersion (m : Mark) (t : Text) : Except Fault (Token × Mark × Text) := do
  let (m, t) := skipGaps m t
  let (major, m, t) ← readVersionNumber m t
  match t with
  | '.' :: t =>
    let (minor, m, t) ← readVersionNumber (m.skip 1) t
    .ok (.version major minor, m, t)
  | _ => .error .badDirective

/-- Reads what the directive of a tag handle says. -/
def readTagHandle (m : Mark) (t : Text) : Except Fault (Token × Mark × Text) := do
  let (m, t) := skipGaps m t
  let (handle, m, t) ← readHandle m t
  if handle ≠ ['!'] ∧ !isClosedHandle handle then .error .badDirective
  else if !t.head?.any isGap then .error .badDirective
  else
    let (m, t) := skipGaps m t
    let (stem, m, t) ← readTagText true [] m t
    if endsWord t then .ok (.tagHandle handle stem, m, t) else .error .badDirective

/-- Reads a directive behind its indicator, to the end of its line. -/
def readDirective (m : Mark) (t : Text) : Except Fault (Token × Mark × Text) := do
  let name := t.takeWhile isWordChar
  let rest := t.dropWhile isWordChar
  if name.isEmpty || !endsWord rest then .error .badDirective
  else
    let m := m.skip name.length
    let (token, m, rest) ←
      if name = "YAML".toList then readVersion m rest
      else if name = "TAG".toList then readTagHandle m rest
      else .error .badDirective
    match finishLine? m rest with
    | some (m, rest) => .ok (token, m, rest)
    | none => .error .badDirective

end Infill.Yaml
