import Infill.Yaml.Character
import Infill.Yaml.Token

/-!
# Scalars

The three ways to write a text: plain, between quotes, and as a block of lines.  Lines of plain and
quoted scalars are folded: a single break between them reads as a space, and more breaks as one less.
-/

set_option autoImplicit false

namespace Infill.Yaml

/-- What stands between two words of a scalar: blanks on one line, or the breaks of its lines. -/
inductive Between where
  | nothing
  | blanks (text : Text)
  | breaks (first : Text) (more : List Text)
  deriving DecidableEq, Repr

namespace Between

/-- How breaks read once they are folded. -/
def folded (first : Text) (more : List Text) : Text :=
  if first = ['\n'] then (if more.isEmpty then [' '] else more.flatten) else first ++ more.flatten

/-- How what stands between two words reads. -/
def text : Between → Text
  | nothing => []
  | blanks t => t
  | breaks first more => folded first more

/-- Adds a blank; behind a break it is indentation. -/
def addBlank (c : Char) : Between → Between
  | nothing => blanks [c]
  | blanks t => blanks (t ++ [c])
  | breaks first more => breaks first more

/-- Adds a break; blanks in front of it are lost. -/
def addBreak (b : Text) : Between → Between
  | nothing => breaks b []
  | blanks _ => breaks b []
  | breaks first more => breaks first (more ++ [b])

/-- Whether a line was broken. -/
def hasBreak : Between → Bool
  | breaks _ _ => true
  | _ => false

end Between

/-- A scalar that was read: its text, whether breaks were passed behind its last word, the place
behind it, and what follows. -/
structure Scanned where
  text : Text
  passedBreak : Bool
  mark : Mark
  rest : Text
  deriving DecidableEq, Repr

/-! ## Quoted scalars -/

/-- What a character behind a backslash stands for; a number of hexadecimal digits is left to read. -/
def escape? : Char → Option (Text × Nat)
  | '0' => some (['\x00'], 0)
  | 'a' => some (['\x07'], 0)
  | 'b' => some (['\x08'], 0)
  | 't' => some (['\t'], 0)
  | '\t' => some (['\t'], 0)
  | 'n' => some (['\n'], 0)
  | 'v' => some (['\x0b'], 0)
  | 'f' => some (['\x0c'], 0)
  | 'r' => some (['\r'], 0)
  | 'e' => some (['\x1b'], 0)
  | ' ' => some ([' '], 0)
  | '"' => some (['"'], 0)
  | '/' => some (['/'], 0)
  | '\\' => some (['\\'], 0)
  | 'N' => some (['\u0085'], 0)
  | '_' => some (['\u00a0'], 0)
  | 'L' => some (['\u2028'], 0)
  | 'P' => some (['\u2029'], 0)
  | 'x' => some ([], 2)
  | 'u' => some ([], 4)
  | 'U' => some ([], 8)
  | _ => none

/-- What was read of an escape sequence: nothing, its backslash, or some of its hexadecimal digits, of
which `left` are to come. -/
inductive Escape where
  | outside
  | begun
  | digits (left value : Nat)
  deriving DecidableEq, Repr

/-- The character of a number, if there is one. -/
def numbered? (n : Nat) : Option Char :=
  if h : n.isValidChar then some (Char.ofNatAux n h) else none

/-- What stands between two words once a break is passed; one behind a backslash reads as nothing. -/
def Escape.passBreak (between : Between) (b : Text) : Escape → Except Fault Between
  | outside => .ok (between.addBreak b)
  | begun => .ok (.breaks [] [])
  | digits _ _ => .error .badEscape

/-- Reads the rest of a quoted scalar.  `double` tells the two kinds of quotes apart. -/
def readQuoted (double : Bool) (escape : Escape) (read : Text) (between : Between) (m : Mark) :
    Text → Except Fault Scanned
  | [] => .error .quoteNotClosed
  | '\r' :: '\n' :: rest => do
    readQuoted double .outside read (← escape.passBreak between ['\n']) m.newLine rest
  | c :: rest => do
    if isBreak c then
      let between ← escape.passBreak between (breakText c)
      readQuoted double .outside read between m.newLine rest
    else
      match escape with
      | .begun =>
        match escape? c with
        | none => .error .badEscape
        | some (text, 0) => readQuoted double .outside (read ++ text) .nothing (m.past c) rest
        | some (_, left) => readQuoted double (.digits left 0) read .nothing (m.past c) rest
      | .digits left value =>
        match hexValue? c with
        | none => .error .badEscape
        | some digit =>
          if 1 < left then
            readQuoted double (.digits (left - 1) (16 * value + digit)) read .nothing (m.past c) rest
          else
            match numbered? (16 * value + digit) with
            | none => .error .badEscape
            | some d => readQuoted double .outside (read ++ [d]) .nothing (m.past c) rest
      | .outside =>
        if isGap c then readQuoted double .outside read (between.addBlank c) (m.past c) rest
        else if m.column = 0 ∧ isDocumentMark (c :: rest) then .error .quoteNotClosed
        else if double then
          if c = '"' then .ok ⟨read ++ between.text, false, (m.past c), rest⟩
          else if c = '\\' then
            readQuoted double .begun (read ++ between.text) .nothing (m.past c) rest
          else readQuoted double .outside (read ++ between.text ++ [c]) .nothing (m.past c) rest
        else if c = '\'' then
          match rest with
          | '\'' :: rest =>
            readQuoted double .outside (read ++ between.text ++ ['\'']) .nothing (m.skip 2) rest
          | rest => .ok ⟨read ++ between.text, false, (m.past c), rest⟩
        else readQuoted double .outside (read ++ between.text ++ [c]) .nothing (m.past c) rest

/-! ## Plain scalars -/

/-- Reads a plain scalar.  Lines of a plain scalar outside of flow collections are indented by at least
`indentation`; a comment ends it only behind a blank. -/
def readPlain (inFlow : Bool) (indentation : Nat) (read : Text) (between : Between) (m : Mark) :
    Text → Except Fault Scanned
  | [] => .ok ⟨read, between.hasBreak, m, []⟩
  | '\r' :: '\n' :: rest =>
    readPlain inFlow indentation read (between.addBreak ['\n']) m.newLine rest
  | c :: rest =>
    let done := Except.ok (Scanned.mk read between.hasBreak m (c :: rest))
    if isBreak c then
      readPlain inFlow indentation read (between.addBreak (breakText c)) m.newLine rest
    else if isGap c then
      if c = '\t' ∧ between.hasBreak ∧ m.column < indentation then .error .tabInIndentation
      else readPlain inFlow indentation read (between.addBlank c) (m.past c) rest
    else if m.column = 0 ∧ isDocumentMark (c :: rest) then done
    else if between ≠ .nothing ∧ (c = '#' ∨ (!inFlow ∧ m.column < indentation)) then done
    else if inFlow ∧ c = ':' ∧ rest.head?.any (fun d => isFlowMark d || d == '?') then
      .error .colonInFlow
    else if c = ':' ∧ endsWord rest then done
    else if inFlow ∧ isFlowMark c then done
    else readPlain inFlow indentation (read ++ between.text ++ [c]) .nothing (m.past c) rest

/-! ## Block scalars -/

/-- What happens to the breaks at the end of a block scalar. -/
inductive Chomping where
  | strip
  | clip
  | keep
  deriving DecidableEq, Repr

/-- Reads the chomping and the indentation that the header of a block scalar gives, in either order;
an indentation of zero is none given. -/
def readBlockHeader (t : Text) : Except Fault (Chomping × Nat × Nat × Text) :=
  let chomping? : Text → Option (Chomping × Text)
    | '+' :: rest => some (.keep, rest)
    | '-' :: rest => some (.strip, rest)
    | _ => none
  let digit (t : Text) : Except Fault (Nat × Text) :=
    match t with
    | c :: rest =>
      if c = '0' then .error .badBlockHeader
      else if c.isDigit then .ok (c.toNat - '0'.toNat, rest)
      else .ok (0, t)
    | [] => .ok (0, [])
  match chomping? t with
  | some (chomping, rest) => do
    let (increment, rest) ← digit rest
    .ok (chomping, increment, t.length - rest.length, rest)
  | none => do
    let (increment, rest) ← digit t
    match if increment = 0 then none else chomping? rest with
    | some (chomping, rest) => .ok (chomping, increment, t.length - rest.length, rest)
    | none => .ok (.clip, increment, t.length - rest.length, rest)

/-- Passes over the blanks and the comment at the end of a line, and over its break.  `none` says that
something else stands there. -/
def finishLine? (m : Mark) (t : Text) : Option (Mark × Text) :=
  let behind := t.dropWhile isGap
  let behind := if behind.head? = some '#' then behind.dropWhile (!isBreak ·) else behind
  let m := m.pastAll (t.take (t.length - behind.length))
  match behind, takeBreak? behind with
  | [], _ => some (m, [])
  | _, some (_, rest) => some (m.newLine, rest)
  | _, none => none

/-- Passes over empty lines and over the indentation of the line behind them.  Where the indentation
is not known, `0`, all spaces count as indentation.  Gives the breaks passed and the greatest column met. -/
def skipEmptyLines (indentation : Nat) (breaks : List Text) (greatest : Nat) (m : Mark) :
    Text → Except Fault (List Text × Nat × Mark × Text)
  | [] => .ok (breaks, max greatest m.column, m, [])
  | '\r' :: '\n' :: rest =>
    skipEmptyLines indentation (breaks ++ [['\n']]) (max greatest m.column) m.newLine rest
  | c :: rest =>
    let greatest := max greatest m.column
    let inside := indentation = 0 ∨ m.column < indentation
    if c = ' ' ∧ inside then skipEmptyLines indentation breaks greatest (m.past c) rest
    else if c = '\t' ∧ inside then .error .tabInIndentation
    else if isBreak c then
      skipEmptyLines indentation (breaks ++ [breakText c]) greatest m.newLine rest
    else .ok (breaks, greatest, m, c :: rest)

/-- A block scalar as far as it was read: its text, the break behind its last line and those behind
that, and whether its last line began with a blank. -/
structure BlockRead where
  text : Text
  lastBreak : Text
  moreBreaks : List Text
  blankInFront : Bool
  deriving DecidableEq, Repr

/-- Reads the lines of a block scalar; each round reads one. -/
def readBlockLines (literal : Bool) (indentation : Nat) :
    Nat → BlockRead → Mark → Text → Except Fault (BlockRead × Mark × Text)
  | 0, read, m, t => .ok (read, m, t)
  | rounds + 1, read, m, t =>
    match t with
    | [] => .ok (read, m, [])
    | c :: _ =>
      if m.column ≠ indentation then .ok (read, m, t)
      else do
        let blank := isGap c
        let joined :=
          if !literal && read.lastBreak == ['\n'] && !read.blankInFront && !blank then
            if read.moreBreaks.isEmpty then [' '] else []
          else read.lastBreak
        let line := t.takeWhile (!isBreak ·)
        let behind := t.dropWhile (!isBreak ·)
        let m := m.pastAll line
        let (lastBreak, m, behind) := match takeBreak? behind with
          | some (b, rest) => (b, m.newLine, rest)
          | none => ([], m, behind)
        let (breaks, _, m, rest) ← skipEmptyLines indentation [] 0 m behind
        readBlockLines literal indentation rounds
          ⟨read.text ++ joined ++ read.moreBreaks.flatten ++ line, lastBreak, breaks, blank⟩ m rest

/-- Reads a block scalar behind its indicator.  `parent` is the column of the collection around it, and
its lines are indented deeper than that. -/
def readBlock (literal : Bool) (parent : Option Nat) (m : Mark) (t : Text) : Except Fault Scanned := do
  let (chomping, increment, width, rest) ← readBlockHeader t
  match finishLine? (m.skip width) rest with
  | none => .error .badBlockHeader
  | some (m, rest) =>
    let given := if increment = 0 then 0 else parent.getD 0 + increment
    let (breaks, greatest, m, rest) ← skipEmptyLines given [] 0 m rest
    let least := match parent with
      | some column => column + 1
      | none => 0
    let indentation := if given = 0 then max greatest (max least 1) else given
    let (read, m, rest) ←
      readBlockLines literal indentation (rest.length + 1) ⟨[], [], breaks, false⟩ m rest
    let tail := match chomping with
      | .strip => []
      | .clip => read.lastBreak
      | .keep => read.lastBreak ++ read.moreBreaks.flatten
    .ok ⟨read.text ++ tail, true, m, rest⟩

end Infill.Yaml
