import Infill.Text.Alphanumeric
import Infill.Text.Basic

/-!
# Regular expressions

Whether a text is a regular expression.  There are groups, classes in brackets that may contain each
other, and the repetitions `*`, `+` and `?`; a repetition with counts in braces is not taken, nor are
boundaries of words and references to groups.
-/

set_option autoImplicit false

namespace Infill.Regex

/-- What a part of an expression stands for: one character, one of several, or a place. -/
inductive Item where
  | char (c : Char)
  | set
  | place
  deriving DecidableEq, Repr

/-- The value of a hexadecimal digit. -/
def hexDigit? (c : Char) : Option Nat :=
  let digits := "0123456789abcdef".toList
  let place := digits.takeWhile (· != c.toLower)
  if place.length < digits.length then some place.length else none

/-- Reads a character that is given by a number of hexadecimal digits. -/
def readNumber? (digits : Nat) (t : Text) : Option (Item × Text) := do
  let values ← (t.take digits).mapM hexDigit?
  let n := values.foldl (16 * · + ·) 0
  if h : values.length = digits ∧ n.isValidChar then
    return (.char (Char.ofNatAux n h.2), t.drop digits)
  else none

/-- Reads what stands behind a backslash. -/
def readEscape? : Text → Option (Item × Text)
  | 'x' :: rest => readNumber? 2 rest
  | 'u' :: rest => readNumber? 4 rest
  | 'U' :: rest => readNumber? 8 rest
  | 'p' :: c :: rest => if "clmnpsz".toList.elem c.toLower then some (.set, rest) else none
  | 'P' :: c :: rest => if "clmnpsz".toList.elem c.toLower then some (.set, rest) else none
  | 'a' :: rest => some (.char '\x07', rest)
  | 'f' :: rest => some (.char '\x0c', rest)
  | 't' :: rest => some (.char '\t', rest)
  | 'n' :: rest => some (.char '\n', rest)
  | 'r' :: rest => some (.char '\r', rest)
  | 'v' :: rest => some (.char '\x0b', rest)
  | 'A' :: rest => some (.place, rest)
  | 'z' :: rest => some (.place, rest)
  | c :: rest =>
    if "dswDSW".toList.elem c then some (.set, rest)
    else if c.toNat < 0x80 && !c.isAlphanum && c != '<' && c != '>' then some (.char c, rest)
    else none
  | [] => none

/-! ## Classes -/

/-- The names of classes of ASCII characters. -/
def classNames : List Text :=
  ["alnum", "alpha", "ascii", "blank", "cntrl", "digit", "graph", "lower", "print", "punct", "space",
    "upper", "word", "xdigit"].map String.toList

/-- What follows the name of a class, written as in `[:alpha:]`, behind its first bracket. -/
def behindClassName? : Text → Option Text
  | ':' :: t =>
    let t := if t.head? = some '^' then t.drop 1 else t
    let name := t.takeWhile (· != ':')
    match t.drop name.length with
    | ':' :: ']' :: rest => if classNames.elem name then some rest else none
    | _ => none
  | _ => none

/-- Passes over what has no meaning of its own in front of a class: a negation, and hyphens or a closing
bracket that stand for themselves. -/
def skipClassFront (t : Text) : Text :=
  let t := if t.head? = some '^' then t.drop 1 else t
  if t.head? = some ']' then t.drop 1 else t.dropWhile (· == '-')

/-- Reads a member of a class or an end of a range. -/
def readMember? : Text → Option (Item × Text)
  | '\\' :: rest => readEscape? rest
  | c :: rest => some (.char c, rest)
  | [] => none

/-- What follows a member of a class with the range that it may begin. -/
def behindRange? (t : Text) : Option Text := do
  let (first, rest) ← readMember? t
  let isRange := rest.head? == some '-' && rest[1]? != some ']' && rest[1]? != some '-'
  if isRange then
    let (last, rest) ← readMember? (rest.drop 1)
    match first, last with
    | .char a, .char b => if a.toNat ≤ b.toNat then some rest else none
    | _, _ => none
  else if first = .place then none
  else some rest

/-- What follows a class that is read up to some place, with `outer` classes around it. -/
def behindClass? : Nat → Nat → Text → Option Text
  | 0, _, _ => none
  | rounds + 1, outer, t =>
    match t with
    | '[' :: rest =>
      match behindClassName? rest with
      | some rest => behindClass? rounds outer rest
      | none => behindClass? rounds (outer + 1) (skipClassFront rest)
    | ']' :: rest => if outer = 0 then some rest else behindClass? rounds (outer - 1) rest
    | '&' :: '&' :: rest => behindClass? rounds outer rest
    | '-' :: '-' :: rest => behindClass? rounds outer rest
    | '~' :: '~' :: rest => behindClass? rounds outer rest
    | t => (behindRange? t).bind (behindClass? rounds outer)

/-! ## Groups -/

/-- What follows the name of a group and the bracket that closes it. -/
def behindGroupName? (t : Text) : Option Text :=
  let name := t.takeWhile (· != '>')
  let isFirst (c : Char) : Bool := c == '_' || (isAlphanumeric c && !c.isDigit)
  let isNext (c : Char) : Bool := isAlphanumeric c || "_.[]".toList.elem c
  if name.head?.any isFirst && name.all isNext && name.length < t.length then
    some (t.drop (name.length + 1))
  else none

/-- Reads the flags in front of a group, or those that stand alone: whether they open a group, and what
follows.  Each flag is given once, and a hyphen stands in front of those that are taken away. -/
def readFlags? (t : Text) : Option (Bool × Text) :=
  let flags := t.takeWhile fun c => c != ':' && c != ')'
  let named := flags.filter (· != '-')
  if !named.all (fun c => "imsUuRx".toList.elem c) || named.eraseDups.length < named.length
      || 1 < flags.count '-' || flags.getLast? == some '-' then none
  else
    match t.drop flags.length with
    | ':' :: rest => some (true, rest)
    | ')' :: rest => if flags.isEmpty then none else some (false, rest)
    | _ => none

/-- Reads what follows an opening bracket and a question mark. -/
def readGroupFront? (t : Text) : Option (Bool × Text) :=
  match t with
  | 'P' :: '<' :: rest => (behindGroupName? rest).map fun rest => (true, rest)
  | '<' :: rest => (behindGroupName? rest).map fun rest => (true, rest)
  | t => readFlags? t

/-! ## Expressions -/

/-- Whether a text ends an expression in which `outer` groups are open.  `repeatable` says whether
something stands in front of it that can be repeated. -/
def isEnd : Nat → Nat → Bool → Text → Bool
  | 0, _, _, _ => false
  | rounds + 1, outer, repeatable, t =>
    match t with
    | [] => outer == 0
    | '(' :: '?' :: rest =>
      match readGroupFront? rest with
      | some (true, rest) => isEnd rounds (outer + 1) false rest
      | some (false, rest) => isEnd rounds outer false rest
      | none => false
    | '(' :: rest => isEnd rounds (outer + 1) false rest
    | ')' :: rest => if outer = 0 then false else isEnd rounds (outer - 1) true rest
    | '|' :: rest => isEnd rounds outer false rest
    | '[' :: rest =>
      match behindClass? (rest.length + 1) 0 (skipClassFront rest) with
      | some rest => isEnd rounds outer true rest
      | none => false
    | '\\' :: rest =>
      match readEscape? rest with
      | some (_, rest) => isEnd rounds outer true rest
      | none => false
    | c :: rest =>
      if c = '\x7b' then false
      else if c = '*' ∨ c = '+' ∨ c = '?' then
        if repeatable then isEnd rounds outer true rest else false
      else isEnd rounds outer true rest

end Regex

/-- Whether a text is a regular expression. -/
def isRegex (t : Text) : Bool := Regex.isEnd (t.length + 1) 0 false t

end Infill
