import Infill.Path

/-!
# Invocations

What a command line asks for: one of three commands and a few settings that all of them share.
-/

set_option autoImplicit false

namespace Infill

/-- A template to compile, and where its data and its output are. -/
structure CompileRequest where
  template : Text
  inline : Bool
  file : Bool
  data : Option Text
  defaults : Option Path
  master : Option Path
  assignments : List Text
  opening : Option Text
  closing : Option Text
  output : Option Path
  deriving DecidableEq, Repr

/-- A document to split, and which part of it to print. -/
structure SplitRequest where
  document : Path
  layoutOnly : Bool
  bodyOnly : Bool
  deriving DecidableEq, Repr

/-- A folder whose files to list, and the patterns they are to match and not to match. -/
structure ListRequest where
  folder : Path
  patterns : List Text
  ignored : List Text
  deriving DecidableEq, Repr

/-- What a command is to do, with its arguments. -/
inductive Command where
  | compile (request : CompileRequest)
  | split (request : SplitRequest)
  | list (request : ListRequest)
  deriving DecidableEq, Repr

/-- A command, and what is said for all commands. -/
structure Invocation where
  command : Command
  verbose : Bool
  config : Option Path
  noColor : Bool
  deriving DecidableEq, Repr

/-- Why a command line asks for nothing that can be done. -/
inductive UsageFault where
  /-- Nothing is given at all. -/
  | nothingGiven
  /-- No command is given. -/
  | noCommand
  /-- A word that stands where a command has to stand is none. -/
  | unknownCommand
  /-- An option does not exist, or a word is one too many. -/
  | unknownArgument
  /-- An option comes twice, or with another that excludes it. -/
  | conflict
  /-- An argument that has to be given is not. -/
  | missingArgument
  /-- An option lacks its value, or a path is empty. -/
  | badValue
  /-- A switch has a value. -/
  | tooManyValues
  /-- The user asks for help. -/
  | helpAsked
  /-- The user asks for the version. -/
  | versionAsked
  deriving DecidableEq, Repr

end Infill
