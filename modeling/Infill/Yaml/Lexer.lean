import Infill.Yaml.Property

/-!
# Reading tokens

A stream is read token by token.  Indentation opens and closes block collections, and a token that
turns out to be followed by a colon is a key: the mark of the key is put in front of it afterwards.
-/

set_option autoImplicit false

namespace Infill.Yaml

/-- A token that may turn out to be a key: whether it has to, its number, and where it stands. -/
structure PossibleKey where
  required : Bool
  number : Nat
  mark : Mark
  deriving DecidableEq, Repr

/-- A stream that is read up to some place.  `columns` are those of the open block collections, the
innermost first; `keys` holds for the block context and for each open flow collection, the
innermost first, the token that may be a key there; `tokens` are those read, the last one first. -/
structure Lexer where
  mark : Mark
  rest : Text
  columns : List Nat
  keys : List (Option PossibleKey)
  mayBeKey : Bool
  tokens : List Token
  deriving DecidableEq, Repr

namespace Lexer

/-- The lexer at the front of a text. -/
def start (t : Text) : Lexer := ⟨.start, t, [], [none], true, []⟩

/-- Whether brackets are open. -/
def inFlow (s : Lexer) : Bool := 1 < s.keys.length

/-- Adds a token. -/
def push (s : Lexer) (token : Token) : Lexer := { s with tokens := token :: s.tokens }

/-- Puts a token in front of the one with a number. -/
def insertAt (s : Lexer) (number : Nat) (token : Token) : Lexer :=
  let behind := s.tokens.length - number
  { s with tokens := s.tokens.take behind ++ token :: s.tokens.drop behind }

/-- Moves on to a place. -/
def moveTo (s : Lexer) (mark : Mark) (rest : Text) : Lexer := { s with mark := mark, rest := rest }

/-- Moves on over some ASCII characters of a line. -/
def advance (s : Lexer) (n : Nat) : Lexer := s.moveTo (s.mark.skip n) (s.rest.drop n)

/-- Forgets the token that may be a key; it is a fault if it has to be one. -/
def dropKey (s : Lexer) : Except Fault Lexer :=
  match s.keys with
  | some key :: keys =>
    if key.required then .error .colonMissing else .ok { s with keys := none :: keys }
  | _ => .ok s

/-- Remembers that the token to be read next may be a key.  A token that stands at the column of the
innermost block collection has to be one. -/
def saveKey (s : Lexer) : Except Fault Lexer :=
  if s.mayBeKey then do
    let key := ⟨!s.inFlow && s.columns.head? == some s.mark.column, s.tokens.length, s.mark⟩
    let s ← s.dropKey
    .ok { s with keys := some key :: s.keys.drop 1 }
  else .ok s

/-- The longest key that needs no mark of its own, in bytes. -/
def maxKeyLength : Nat := 1024

/-- Whether a token can no longer be a key, since keys are short and take one line. -/
def isStale (m : Mark) (key : PossibleKey) : Bool :=
  key.mark.line < m.line || key.mark.offset + maxKeyLength < m.offset

/-- Forgets the tokens that can no longer be keys. -/
def dropStaleKeys (s : Lexer) : Except Fault Lexer :=
  if s.keys.any (fun key => key.any fun key => key.required && isStale s.mark key) then
    .error .colonMissing
  else
    let keys := s.keys.map fun key => if key.any (isStale s.mark) then none else key
    .ok { s with keys := keys }

/-- Closes the block collections that are indented deeper than a column. -/
def closeDeeper (s : Lexer) (column : Option Nat) : Lexer :=
  if s.inFlow then s
  else
    let isDeeper (c : Nat) : Bool := match column with
      | some column => column < c
      | none => true
    let closed := s.columns.takeWhile isDeeper
    { s with
      columns := s.columns.dropWhile isDeeper
      tokens := List.replicate closed.length .blockEnd ++ s.tokens }

/-- Opens a block collection at a column that is deeper than all open ones, in front of the token with
a number or, without one, at the end. -/
def openAt (s : Lexer) (column : Nat) (number : Option Nat) (token : Token) : Lexer :=
  if s.inFlow || s.columns.head?.any (column ≤ ·) then s
  else
    let s := { s with columns := column :: s.columns }
    match number with
    | some number => s.insertAt number token
    | none => s.push token

/-- Passes over blanks, comments and line breaks, and over a mark of the byte order in front of a line.
A tab is not passed over where a key may begin, and behind a break a key may begin. -/
def skipToToken (inFlow : Bool) (inComment mayBeKey : Bool) (m : Mark) :
    Text → Bool × Mark × Text
  | '\r' :: '\n' :: rest => skipToToken inFlow false (mayBeKey || !inFlow) m.newLine rest
  | c :: rest =>
    if isBreak c then skipToToken inFlow false (mayBeKey || !inFlow) m.newLine rest
    else if inComment || c = ' ' || (c = '\t' && (inFlow || !mayBeKey))
        || (c = byteOrderMark && m.column = 0) then
      skipToToken inFlow inComment mayBeKey (m.past c) rest
    else if c = '#' then skipToToken inFlow true mayBeKey (m.past c) rest
    else (mayBeKey, m, c :: rest)
  | [] => (mayBeKey, m, [])

/-- Ends the stream, with everything that is open. -/
def readEnd (s : Lexer) : Except Fault Lexer := do
  let s ← (s.closeDeeper none).dropKey
  .ok (s.push .streamEnd)

/-- A mark of three characters at the start of a line. -/
def readDocumentMark (s : Lexer) (token : Token) : Except Fault Lexer := do
  let s ← (s.closeDeeper none).dropKey
  .ok ({ s with mayBeKey := false }.push token |>.advance 3)

/-- Reads a directive. -/
def readDirectiveToken (s : Lexer) : Except Fault Lexer := do
  let s ← (s.closeDeeper none).dropKey
  let (token, mark, rest) ← readDirective (s.mark.skip 1) (s.rest.drop 1)
  .ok ({ s with mayBeKey := false }.push token |>.moveTo mark rest)

/-- Reads an opening bracket. -/
def readFlowStart (s : Lexer) (token : Token) : Except Fault Lexer := do
  let s ← s.saveKey
  .ok ({ s with keys := none :: s.keys, mayBeKey := true }.push token |>.advance 1)

/-- The end of a flow collection; one without a start is left to the structure of the document. -/
def readFlowEnd (s : Lexer) (token : Token) : Except Fault Lexer := do
  let s ← s.dropKey
  let keys := if s.inFlow then s.keys.drop 1 else s.keys
  .ok ({ s with keys := keys, mayBeKey := false }.push token |>.advance 1)

/-- Reads a comma between brackets. -/
def readComma (s : Lexer) : Except Fault Lexer := do
  let s ← s.dropKey
  .ok ({ s with mayBeKey := true }.push .flowComma |>.advance 1)

/-- Reads the hyphen of an item. -/
def readItem (s : Lexer) : Except Fault Lexer := do
  if !s.inFlow && !s.mayBeKey then .error .itemOutOfPlace
  else
    let s ← (s.openAt s.mark.column none .blockSequenceStart).dropKey
    .ok ({ s with mayBeKey := true }.push .blockItem |>.advance 1)

/-- Reads the question mark before a key. -/
def readKey (s : Lexer) : Except Fault Lexer := do
  if !s.inFlow && !s.mayBeKey then .error .keyOutOfPlace
  else
    let s ← (s.openAt s.mark.column none .blockMappingStart).dropKey
    .ok ({ s with mayBeKey := !s.inFlow }.push .key |>.advance 1)

/-- The colon in front of a value.  If a token may be a key, it is one. -/
def readValue (s : Lexer) : Except Fault Lexer :=
  match s.keys with
  | some key :: keys =>
    let s := (s.insertAt key.number .key).openAt key.mark.column (some key.number) .blockMappingStart
    .ok ({ s with keys := none :: keys, mayBeKey := false }.push .value |>.advance 1)
  | _ =>
    if !s.inFlow && !s.mayBeKey then .error .valueOutOfPlace
    else
      let s := s.openAt s.mark.column none .blockMappingStart
      .ok ({ s with mayBeKey := !s.inFlow }.push .value |>.advance 1)

/-- Reads an anchor or an alias. -/
def readAnchor (s : Lexer) (token : Text → Token) : Except Fault Lexer := do
  let s ← s.saveKey
  let (name, mark, rest) ← readAnchorName (s.mark.skip 1) (s.rest.drop 1)
  .ok ({ s with mayBeKey := false }.push (token name) |>.moveTo mark rest)

/-- Reads a tag. -/
def readTagToken (s : Lexer) : Except Fault Lexer := do
  let s ← s.saveKey
  let (token, mark, rest) ← readTag s.inFlow s.mark s.rest
  .ok ({ s with mayBeKey := false }.push token |>.moveTo mark rest)

/-- Reads a scalar in a block of lines. -/
def readBlockToken (s : Lexer) (literal : Bool) : Except Fault Lexer := do
  let s ← s.dropKey
  let read ← readBlock literal s.columns.head? (s.mark.skip 1) (s.rest.drop 1)
  .ok ({ s with mayBeKey := true }.push (.scalar read.text .block) |>.moveTo read.mark read.rest)

/-- Reads a scalar between quotation marks. -/
def readQuotedToken (s : Lexer) (double : Bool) : Except Fault Lexer := do
  let s ← s.saveKey
  let read ← readQuoted double .outside [] .nothing (s.mark.skip 1) (s.rest.drop 1)
  .ok ({ s with mayBeKey := false }.push (.scalar read.text .quoted) |>.moveTo read.mark read.rest)

/-- A plain scalar.  A key may begin behind one that ends with its line. -/
def readPlainToken (s : Lexer) : Except Fault Lexer := do
  let s ← s.saveKey
  let indentation := match s.columns with
    | column :: _ => column + 1
    | [] => 0
  let read ← readPlain s.inFlow indentation [] .nothing s.mark s.rest
  .ok ({ s with mayBeKey := read.passedBreak }.push (.scalar read.text .plain)
    |>.moveTo read.mark read.rest)

/-- Characters that begin no plain scalar. -/
def isIndicator (c : Char) : Bool := "-?:,[]\x7b\x7d#&*!|>'\"%@\x60".toList.elem c

/-- Whether a plain scalar begins with `c`, followed by `rest`. -/
def beginsPlain (inFlow : Bool) (c : Char) (rest : Text) : Bool :=
  !(isIndicator c || endsWord [c]) || (c == '-' && !rest.head?.any isGap)
    || (!inFlow && (c == '?' || c == ':') && !endsWord rest)

/-- Reads the token at the front of what is left. -/
def readToken (s : Lexer) (c : Char) (rest : Text) : Except Fault Lexer :=
  if s.mark.column = 0 ∧ c = '%' then s.readDirectiveToken
  else if s.mark.column = 0 ∧ isDocumentMark (c :: rest) then
    s.readDocumentMark (if c = '-' then .documentStart else .documentEnd)
  else if c = '[' then s.readFlowStart .flowSequenceStart
  else if c = '\x7b' then s.readFlowStart .flowMappingStart
  else if c = ']' then s.readFlowEnd .flowSequenceEnd
  else if c = '\x7d' then s.readFlowEnd .flowMappingEnd
  else if c = ',' then s.readComma
  else if c = '-' ∧ endsWord rest then s.readItem
  else if c = '?' ∧ (s.inFlow ∨ endsWord rest) then s.readKey
  else if c = ':' ∧ (s.inFlow ∨ endsWord rest) then s.readValue
  else if c = '*' then s.readAnchor .alias
  else if c = '&' then s.readAnchor .anchor
  else if c = '!' then s.readTagToken
  else if c = '|' ∧ !s.inFlow then s.readBlockToken true
  else if c = '>' ∧ !s.inFlow then s.readBlockToken false
  else if c = '\'' then s.readQuotedToken false
  else if c = '"' then s.readQuotedToken true
  else if beginsPlain s.inFlow c rest then s.readPlainToken
  else .error .strangeCharacter

/-- Reads tokens up to the end of the stream; each round reads one. -/
def readAll : Nat → Lexer → Except Fault (List Token)
  | 0, _ => .error .strangeCharacter
  | rounds + 1, s => do
    let (mayBeKey, mark, rest) := skipToToken s.inFlow false s.mayBeKey s.mark s.rest
    let s ← ({ s with mayBeKey := mayBeKey }.moveTo mark rest).dropStaleKeys
    let s := s.closeDeeper (some s.mark.column)
    match s.rest with
    | [] => return (← s.readEnd).tokens.reverse
    | c :: rest => readAll rounds (← s.readToken c rest)

end Lexer

/-- The tokens of a text. -/
def tokens (t : Text) : Except Fault (List Token) :=
  if t.all isPrintable then Lexer.readAll (t.length + 1) (Lexer.start t)
  else .error .controlCharacter

end Infill.Yaml
