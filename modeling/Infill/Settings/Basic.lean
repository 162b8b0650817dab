import Infill.CommandLine.Variables
import Infill.Path
import Infill.Template.Delimiters

/-!
# Settings

What a user can settle once for many templates: the delimiters, the documents of default and of master
data, variables, and how much is logged.
-/

set_option autoImplicit false

namespace Infill

/-- What is settled apart from the command line. -/
structure Settings where
  opening : Text
  closing : Text
  defaultData : Option Path
  masterData : Option Path
  overrides : Variables
  logLevel : Text
  logFormat : Text
  deriving DecidableEq, Repr

namespace Settings

/-- The settings of a user who settles nothing. -/
def default : Settings where
  opening := Template.Delimiters.default.opening
  closing := Template.Delimiters.default.closing
  defaultData := none
  masterData := none
  overrides := []
  logLevel := "warn".toList
  logFormat := "pretty".toList

/-- The delimiters that the settings amount to. -/
def delimiters (s : Settings) : Template.Delimiters := .ofPair s.opening s.closing

/-- The variables of a process, in which some settings may be given. -/
abbrev Environment := List (Text × Text)

/-- The text of a variable of the environment. -/
def variableOf (env : Environment) (name : String) : Option Text :=
  (env.find? fun (n, _) => n == name.toList).map (·.2)

/-- The settings with those of the environment in their place, empty ones included. -/
def override (s : Settings) (env : Environment) : Settings :=
  { s with
    logLevel := (variableOf env "STENCIL_LOG_LEVEL").getD s.logLevel
    logFormat := (variableOf env "STENCIL_LOG_FORMAT").getD s.logFormat
    opening := (variableOf env "STENCIL_OPEN_DELIMITER").getD s.opening
    closing := (variableOf env "STENCIL_CLOSE_DELIMITER").getD s.closing }

end Settings
end Infill
