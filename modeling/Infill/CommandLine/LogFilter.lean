import Infill.Log
import Infill.Number.Numeral
import Infill.Text.Alphanumeric
import Infill.Text.Blank
import Infill.Text.Regex
import Infill.Text.Utf8

/-!
# Log filters

Which events are logged is given as a list of directives: `info`, `stencil::store=debug`.  An event is
judged by the directive with the longest target that its own target begins with.
-/

set_option autoImplicit false

namespace Infill

/-- The name under which a filter knows a topic. -/
def LogTopic.target : LogTopic → Text
  | application => "stencil::cli::app".toList
  | commands => "stencil::cli::commands".toList
  | compiler => "stencil::template::compiler".toList
  | layout => "stencil::template::layout".toList
  | documents => "stencil::store".toList
  | files => "stencil::store::local".toList

namespace LogFilter

/-- A directive: the events it is about and the greatest rank that is logged of them.  They have a
target that begins with `target` and they carry `field`, where these are given.  A directive that names
a span of time or the value of a field, `inside`, concerns no event. -/
structure Directive where
  target : Option Text
  inside : Bool
  field : Option Text
  rank : Nat
  deriving DecidableEq, Repr

/-- Why a directive cannot be read. -/
inductive DirectiveFault where
  | malformed
  | unknownLevel
  | badValue
  deriving DecidableEq, Repr

/-- The wording of a fault in a directive. -/
def DirectiveFault.message : DirectiveFault → String
  | malformed => "invalid filter directive"
  | unknownLevel => "error parsing level filter: expected one of \"off\", \"error\", \"warn\", " ++
      "\"info\", \"debug\", \"trace\", or a number 0-5"
  | badValue => "invalid field filter"

/-- The rank up to which a word lets events pass. -/
def rankOf? (word : Text) : Option Nat :=
  let digits := match word with
    | '+' :: digits => digits
    | digits => digits
  match Numeral.value? digits with
  | some n => if n ≤ LogLevel.trace.rank then some n else none
  | none =>
    let lower := word.map Char.toLower
    if lower = "off".toList then some 0
    else
      [LogLevel.error, .warn, .info, .debug, .trace].findSome? fun level =>
        if level.name.toList.map Char.toLower = lower then some level.rank else none

/-- Whether a text is a decimal number without a sign: digits with a point among or around them and an
exponent, or one of the words for what is infinite or no number. -/
def isNumber (t : Text) : Bool :=
  let (whole, rest) := t.span Char.isDigit
  let (part, rest) := if rest.head? = some '.' then (rest.drop 1).span Char.isDigit else ([], rest)
  let isExponent := match rest with
    | [] => true
    | e :: power =>
      let digits := if power.head?.any (fun c => c == '+' || c == '-') then power.drop 1 else power
      e.toLower == 'e' && !digits.isEmpty && digits.all Char.isDigit
  ((!whole.isEmpty || !part.isEmpty) && isExponent)
    || ["inf".toList, "infinity".toList, "nan".toList].elem (t.map Char.toLower)

/-- Whether a text may stand for the value of a field: a regular expression, or a number, which alone
may begin with a plus sign. -/
def isValue (t : Text) : Bool := isRegex t || (t.head? == some '+' && isNumber (t.drop 1))

/-- A directive as it is read.  Its parts are found in its text without the blanks around it, `kept`,
and are cut out of the whole text, `whole`, at the same distances from its start.  So blanks behind a
directive belong to its last part, and blanks in front of it shift every part. -/
structure Reading where
  whole : Bytes
  kept : Bytes

namespace Reading

/-- The part from `start` up to `stop`; there is none if a character is cut apart. -/
def cut (r : Reading) (start stop : Nat) : Except DirectiveFault Text :=
  match Utf8.decode? ((r.whole.drop start).take (stop - start)) with
  | some t => .ok t
  | none => .error .malformed

/-- What is read from a place on to the end. -/
def cutFrom (r : Reading) (start : Nat) : Except DirectiveFault Text := r.cut start r.whole.length

/-- The first place from `start` on at which one of two marks stands, and that mark. -/
def findMark? (r : Reading) (start : Nat) (a b : Char) : Option (Nat × Char) :=
  let behind := r.kept.drop start
  let gap := behind.takeWhile fun byte => byte != a.toUInt8 && byte != b.toUInt8
  (behind[gap.length]?).map fun byte => (start + gap.length, if byte = a.toUInt8 then a else b)

/-- Whether a mark stands at a place of what is kept. -/
def hasAt (r : Reading) (place : Nat) (mark : Char) : Bool := r.kept[place]? == some mark.toUInt8

/-- Reads a level, which may be left out, and gives it to a directive. -/
def level (r : Reading) (d : Directive) (start : Nat) : Except DirectiveFault Directive := do
  let word ← r.cutFrom start
  if word.isEmpty then return d
  else
    match rankOf? word with
    | some rank => return { d with rank := rank }
    | none => throw .unknownLevel

/-- Reads what follows the brackets: nothing, or a level behind an equals sign. -/
def behindBrackets (r : Reading) (d : Directive) (start : Nat) : Except DirectiveFault Directive :=
  if start = r.kept.length then .ok d
  else if r.hasAt start '=' then r.level d (start + 1)
  else .error .malformed

/-- Reads a field, which may have a value, and what follows it. -/
def behindBrace (r : Reading) (d : Directive) (start : Nat) : Except DirectiveFault Directive := do
  match r.findMark? start '\x7d' '\x7d' with
  | none => throw .malformed
  | some (stop, _) =>
    let field ← r.cut start stop
    let name := field.takeWhile (· != '=')
    let value := (field.drop (name.length + 1)).takeWhile (· != '=')
    if field.isEmpty then throw .malformed
    else if !isValue value then throw .badValue
    else if !r.hasAt (stop + 1) ']' then throw .malformed
    else
      let d := { d with inside := d.inside || name.length < field.length, field := some name }
      r.behindBrackets d (stop + 2)

/-- Reads the name of a span, and a field that may stand behind it. -/
def behindBracket (r : Reading) (target : Option Text) (start : Nat) :
    Except DirectiveFault Directive := do
  match r.findMark? start ']' '\x7b' with
  | none => throw .malformed
  | some (stop, mark) =>
    let name ← r.cut start stop
    if mark = ']' then
      r.behindBrackets ⟨target, true, none, LogLevel.trace.rank⟩ (stop + 1)
    else
      r.behindBrace ⟨target, !name.isEmpty, none, LogLevel.trace.rank⟩ (stop + 1)

/-- Reads a directive that begins with a target or is a level. -/
def word (r : Reading) : Except DirectiveFault Directive := do
  match r.findMark? 0 '=' '[' with
  | none =>
    let word ← r.cutFrom 0
    match rankOf? word with
    | some rank => return ⟨none, false, none, rank⟩
    | none => return ⟨some word, false, none, LogLevel.trace.rank⟩
  | some (stop, mark) =>
    let target ← r.cut 0 stop
    if mark = '=' then r.level ⟨some target, false, none, LogLevel.trace.rank⟩ (stop + 1)
    else r.behindBracket (some target) (stop + 1)

end Reading

/-- Whether a target or a level may begin with a character. -/
def mayBegin (c : Char) : Bool := isAlphanumeric c || c == '-' || c == ':' || c == '_'

/-- Reads a directive. -/
def Directive.read (t : Text) : Except DirectiveFault Directive :=
  let r : Reading := ⟨Utf8.encode t, Utf8.encode t.trim⟩
  match t.trim.head? with
  | none => .error .malformed
  | some c =>
    if c = '[' then r.behindBracket none 1
    else if mayBegin c then r.word
    else .error .malformed

/-- The directives between the commas; none is empty. -/
def parts (t : Text) : List Text := (Text.splitOn ',' t).filter (!·.isEmpty)

/-- The directives of a text that can be read. -/
def readable (t : Text) : List Directive :=
  (parts t).filterMap fun part => (Directive.read part).toOption

/-- What is said about the directives of a text that cannot be read. -/
def complaintsAbout (t : Text) : List String :=
  (parts t).filterMap fun part =>
    match Directive.read part with
    | .ok _ => none
    | .error fault => some ("ignoring \x60" ++ part.asString ++ "\x60: " ++ fault.message)

end LogFilter

/-- What decides which events are logged: directives, and what there is to say about those that were
left out. -/
structure LogFilter where
  directives : List LogFilter.Directive
  complaints : List String
  deriving DecidableEq, Repr

namespace LogFilter

/-- The filter that holds: that of the environment if all of it can be read, else that of the settings
as far as it can be read.  Without any directive errors are logged. -/
def choose (environment : Option Text) (settings : Text) : LogFilter :=
  let orErrors (ds : List Directive) : List Directive :=
    if ds.isEmpty then [⟨none, false, none, LogLevel.error.rank⟩] else ds
  match environment.bind fun t => ((parts t).mapM Directive.read).toOption with
  | some ds => ⟨orErrors ds, []⟩
  | none => ⟨orErrors (readable settings), complaintsAbout settings⟩

/-- The only field that an event has. -/
def messageField : Text := "message".toList

/-- Whether a directive is about events of a topic. -/
def Directive.concerns (d : Directive) (topic : LogTopic) : Bool :=
  !d.inside && d.field.all (· == messageField) && d.target.all (·.isPrefixOf topic.target)

/-- How closely a directive names its events: first by their target, then by a field. -/
def Directive.closeness (d : Directive) : Nat :=
  let byTarget := match d.target with
    | none => 0
    | some target => 1 + target.length
  2 * byTarget + (if d.field.isSome then 1 else 0)

/-- The directive that judges the events of a topic: of those that name them most closely, the last. -/
def judge? (filter : LogFilter) (topic : LogTopic) : Option Directive :=
  (filter.directives.filter (·.concerns topic)).foldl (fun best d =>
    match best with
    | none => some d
    | some b => if b.closeness ≤ d.closeness then some d else some b) none

/-- Whether a filter lets an event through. -/
def passes (filter : LogFilter) (event : LogEvent) : Bool :=
  match filter.judge? event.topic with
  | some d => decide (event.level.rank ≤ d.rank)
  | none => false

end LogFilter
end Infill
