import Infill.CommandLine.Invocation
import Infill.CommandLine.Parameter

/-!
# Reading arguments

A command line is read word by word.  An option whose value is still to come is pending; it is
settled when the next parameter is met, so of two faults the one that is noticed first wins.
-/

set_option autoImplicit false

namespace Infill.CommandLine

/-- A parameter that was given, with its value if it takes one. -/
structure Given where
  parameter : Parameter
  value : Option Text
  deriving DecidableEq, Repr

/-- What was read so far: the parameters given, and the one that is not settled yet. -/
structure Reading where
  given : List Given
  pending : Option Given
  deriving DecidableEq, Repr

namespace Reading

/-- Nothing is read yet. -/
def start : Reading := ⟨[], none⟩

/-- Whether a parameter was given. -/
def has (r : Reading) (p : Parameter) : Bool := r.given.any fun g => g.parameter == p

/-- The texts that were given for a parameter, in their order. -/
def values (r : Reading) (p : Parameter) : List Text :=
  r.given.filterMap fun g => if g.parameter = p then g.value else none

/-- The value of a parameter that is given once. -/
def value? (r : Reading) (p : Parameter) : Option Text := (r.values p).head?

/-- Whether the value of an option is still to come. -/
def isAwaiting (r : Reading) : Bool := r.pending.any fun g => g.value.isNone

/-- Adds what was given to what is settled. -/
def record (r : Reading) (g : Given) : Except UsageFault Reading :=
  match g.parameter.intake, g.value with
  | .help, _ => .error .helpAsked
  | .version, _ => .error .versionAsked
  | .switch, _ =>
    if r.has g.parameter then .error .conflict else .ok { r with given := r.given ++ [g] }
  | .text, some _ =>
    if r.has g.parameter then .error .conflict else .ok { r with given := r.given ++ [g] }
  | .path, some value =>
    if r.has g.parameter then .error .conflict
    else if value.isEmpty then .error .badValue
    else .ok { r with given := r.given ++ [g] }
  | .texts, some _ => .ok { r with given := r.given ++ [g] }
  | _, none => .error .badValue

/-- What waits for its value is given without one. -/
def settle (r : Reading) : Except UsageFault Reading :=
  match r.pending with
  | none => .ok r
  | some g => record { r with pending := none } g

/-- Takes up what was given, after what was waiting. -/
def add (r : Reading) (g : Given) : Except UsageFault Reading := do (← r.settle).record g

/-- Takes up what was given, once its value is there. -/
def await (r : Reading) (g : Given) : Except UsageFault Reading := do
  return { (← r.settle) with pending := some g }

end Reading

/-- The value that a word carries behind an equals sign. -/
def cutValue (word : Text) : Text × Option Text :=
  match Text.cutAtFirst? ['='] word with
  | some (name, value) => (name, some value)
  | none => (word, none)

/-- Reads a word behind two hyphens. -/
def readLong (options : List Parameter) (r : Reading) (word : Text) : Except UsageFault Reading :=
  let (name, value) := cutValue word
  match options.find? fun p => p.long?.any fun long => long.toList == name with
  | none => .error .unknownArgument
  | some p =>
    match p.takesValue, value with
    | true, some value => r.add ⟨p, some value⟩
    | true, none => r.await ⟨p, none⟩
    | false, some _ => .error .tooManyValues
    | false, none => r.add ⟨p, none⟩

/-- Reads the letters behind one hyphen; a letter that takes a value takes the rest of the word. -/
def readShort (options : List Parameter) (r : Reading) : Text → Except UsageFault Reading
  | [] => .ok r
  | letter :: rest =>
    match options.find? fun p => p.short? == some letter with
    | none => .error .unknownArgument
    | some p =>
      if p.takesValue then
        match rest with
        | [] => r.await ⟨p, none⟩
        | '=' :: value => r.add ⟨p, some value⟩
        | value => r.add ⟨p, some value⟩
      else do readShort options (← r.add ⟨p, none⟩) rest

/-- How a word looks. -/
inductive Shape where
  /-- Two hyphens alone. -/
  | separator
  /-- Two hyphens and more. -/
  | long (word : Text)
  /-- One hyphen and letters. -/
  | short (letters : Text)
  /-- Anything else, a lone hyphen included. -/
  | plain
  deriving DecidableEq, Repr

/-- The shape of a word, by the hyphens that it begins with. -/
def Shape.of : Text → Shape
  | ['-', '-'] => .separator
  | '-' :: '-' :: word => .long word
  | '-' :: c :: letters => .short (c :: letters)
  | _ => .plain

/-- Reads a word as an option or as the value of the pending one; `none` says that it is neither. -/
def readOption (options : List Parameter) (r : Reading) (word : Text) :
    Except UsageFault (Option Reading) :=
  match Shape.of word with
  | .long w => (readLong options r w).map some
  | .short letters => (readShort options r letters).map some
  | _ =>
    match r.pending with
    | some ⟨p, none⟩ => .ok (some { r with pending := some ⟨p, some word⟩ })
    | _ => .ok none

/-- Reads the words behind a command.  Behind two hyphens alone every word is plain. -/
def readCommandWords (c : CommandName) (plainOnly : Bool) (r : Reading) :
    List Text → Except UsageFault Reading
  | [] => r.settle
  | word :: words => do
    if !plainOnly && Shape.of word = .separator then
      readCommandWords c true r words
    else
      match ← if plainOnly then .ok none else readOption c.options r word with
      | some r => readCommandWords c plainOnly r words
      | none =>
        if r.has c.operand || r.pending.any (·.parameter == c.operand) then .error .unknownArgument
        else readCommandWords c plainOnly (← r.await ⟨c.operand, some word⟩) words

/-- Reads a command: its words, whether options exclude each other, and whether all is there. -/
def readCommand (c : CommandName) (words : List Text) : Except UsageFault Reading := do
  let r ← readCommandWords c false .start words
  if (c.exclusive?).any fun (p, q) => r.has p && r.has q then .error .conflict
  else if r.has c.operand then .ok r
  else .error .missingArgument

/-- The words behind `help` name a command, if there are any. -/
def readHelp : List Text → UsageFault
  | [] => .helpAsked
  | word :: words =>
    if ((CommandName.ofWord? word).isSome || word == helpWord) && words.isEmpty then .helpAsked
    else .unknownCommand

/-- Reads the words in front of the command, and then the command. -/
def readGlobalWords (plainOnly : Bool) (r : Reading) :
    List Text → Except UsageFault (Reading × Option (CommandName × Reading))
  | [] => do return (← r.settle, none)
  | word :: words => do
    let command := if plainOnly || r.isAwaiting then none else CommandName.ofWord? word
    match command with
    | some c => do
      let inner ← readCommand c words
      return (← r.settle, some (c, inner))
    | none =>
      if !plainOnly && !r.isAwaiting && word == helpWord then .error (readHelp words)
      else if !plainOnly && Shape.of word = .separator then readGlobalWords true r words
      else
        match ← if plainOnly then .ok none else readOption globalOptions r word with
        | some r => readGlobalWords plainOnly r words
        | none =>
          if plainOnly && ((CommandName.ofWord? word).isSome || word == helpWord) then
            .error .unknownArgument
          else .error .unknownCommand

/-- The command with what was given for its parameters. -/
def commandOf (c : CommandName) (r : Reading) : Command :=
  match c with
  | .compile =>
    .compile {
      template := (r.value? .template).getD []
      inline := r.has .inline
      file := r.has .file
      data := r.value? .data
      defaults := r.value? .defaults
      master := r.value? .master
      assignments := r.values .assignment
      opening := r.value? .opening
      closing := r.value? .closing
      output := r.value? .output }
  | .split =>
    .split ⟨(r.value? .document).getD [], r.has .layoutOnly, r.has .bodyOnly⟩
  | .list => .list ⟨(r.value? .folder).getD [], r.values .pattern, r.values .ignore⟩

/-- Reads the words of a command line, without the name of the program.  A shared setting counts where
it stands deepest. -/
def read (words : List Text) : Except UsageFault Invocation := do
  match ← readGlobalWords false .start words with
  | (outer, some (c, inner)) =>
    return {
      command := commandOf c inner
      verbose := outer.has .verbose || inner.has .verbose
      config := (inner.value? .config).orElse fun _ => outer.value? .config
      noColor := outer.has .noColor || inner.has .noColor }
  | (outer, none) => .error (if outer.given.isEmpty then .nothingGiven else .noCommand)

end Infill.CommandLine
