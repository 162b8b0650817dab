import Infill.Text.Basic

/-!
# Parameters

Everything that can be given on a command line, how it is written, and what it takes.
-/

set_option autoImplicit false

namespace Infill.CommandLine

/-- The commands. -/
inductive CommandName where
  | compile
  | split
  | list
  deriving DecidableEq, Repr

/-- What can be given, by an option or, for the last three, by its place. -/
inductive Parameter where
  | verbose
  | config
  | noColor
  | help
  | version
  | inline
  | file
  | data
  | defaults
  | master
  | assignment
  | opening
  | closing
  | output
  | layoutOnly
  | bodyOnly
  | pattern
  | ignore
  | template
  | document
  | folder
  deriving DecidableEq, Repr

/-- What a parameter takes. -/
inductive Intake where
  /-- Nothing; it is given or not. -/
  | switch
  | text
  /-- One path, which is not empty. -/
  | path
  /-- A text each time it is given. -/
  | texts
  /-- Nothing; it ends the reading. -/
  | help
  /-- Nothing; it ends the reading. -/
  | version
  deriving DecidableEq, Repr

namespace Parameter

/-- The word behind two hyphens; a parameter given by its place has none. -/
def long? : Parameter → Option String
  | verbose => some "verbose"
  | config => some "config"
  | noColor => some "no-color"
  | help => some "help"
  | version => some "version"
  | inline => some "inline"
  | file => some "file"
  | data => some "data"
  | defaults => some "defaults"
  | master => some "master"
  | assignment => some "var"
  | opening => some "open"
  | closing => some "close"
  | output => some "output"
  | layoutOnly => some "layout-only"
  | bodyOnly => some "body-only"
  | pattern => some "pattern"
  | ignore => some "ignore"
  | template => none
  | document => none
  | folder => none

/-- The letter behind one hyphen. -/
def short? : Parameter → Option Char
  | verbose => some 'v'
  | config => some 'c'
  | help => some 'h'
  | version => some 'V'
  | data => some 'd'
  | assignment => some 'V'
  | output => some 'o'
  | pattern => some 'p'
  | _ => none

/-- What a parameter takes in. -/
def intake : Parameter → Intake
  | verbose | noColor | inline | file | layoutOnly | bodyOnly => .switch
  | help => .help
  | version => .version
  | config | defaults | master | output | document | folder => .path
  | data | opening | closing | template => .text
  | assignment | pattern | ignore => .texts

/-- Whether a value belongs to a parameter. -/
def takesValue (p : Parameter) : Bool :=
  match p.intake with
  | .text | .path | .texts => true
  | .switch | .help | .version => false

end Parameter

/-- The settings that every command shares. -/
def shared : List Parameter := [.verbose, .config, .noColor, .help]

namespace CommandName

/-- The word by which a command is asked for. -/
def word : CommandName → String
  | compile => "compile"
  | split => "split"
  | list => "list"

/-- The commands, in the order in which they are listed. -/
def all : List CommandName := [compile, split, list]

/-- The command that a word asks for. -/
def ofWord? (word : Text) : Option CommandName := all.find? fun c => c.word.toList == word

/-- The options that a command knows. -/
def options : CommandName → List Parameter
  | compile => shared ++
      [.inline, .file, .data, .defaults, .master, .assignment, .opening, .closing, .output]
  | split => shared ++ [.layoutOnly, .bodyOnly]
  | list => shared ++ [.pattern, .ignore]

/-- What a command is given by its place. -/
def operand : CommandName → Parameter
  | compile => .template
  | split => .document
  | list => .folder

/-- Two options of a command that exclude each other. -/
def exclusive? : CommandName → Option (Parameter × Parameter)
  | compile => some (.inline, .file)
  | split => some (.layoutOnly, .bodyOnly)
  | list => none

end CommandName

/-- The options that are known before a command is named. -/
def globalOptions : List Parameter := shared ++ [.version]

/-- The word that asks for help in place of a command. -/
def helpWord : Text := ['h', 'e', 'l', 'p']

end Infill.CommandLine
