import Infill.Files.Walk
import Infill.Settings.Document

/-!
# Finding settings

Settings are in a file that the user names, in one of the home folder, or in one of the working folder,
and the environment has the last word.  Where there is no file, the defaults hold.
-/

set_option autoImplicit false

namespace Infill

/-- Why there are no settings. -/
inductive SettingsError where
  /-- The system refused the file. -/
  | unreadable (fault : SystemFault)
  | notText
  | malformed (fault : Yaml.Fault)
  | misshapen (fault : Settings.ShapeFault)
  deriving DecidableEq, Repr

/-- The wording of an error. -/
def SettingsError.message : SettingsError → String
  | unreadable fault => fault.message
  | notText => "stream did not contain valid UTF-8"
  | malformed fault => fault.message
  | misshapen fault => fault.message

namespace Settings

/-- The names under which settings are looked for in the working folder, the preferred ones first. -/
def fileNames : List Path :=
  ["stencil.yaml".toList, "stencil.yml".toList, ".stencil.yaml".toList, ".stencil.yml".toList]

/-- The file of settings in the home folder, where the environment names one. -/
def homeFile? (env : Environment) : Option Path :=
  match variableOf env "HOME" with
  | some (c :: home) =>
    some (Path.join (Path.join (c :: home) ".stencil".toList) "config.yaml".toList)
  | _ => none

/-- Every place in which settings are looked for, in order. -/
def candidates (env : Environment) : List Path := (homeFile? env).toList ++ fileNames

/-- The settings that a text gives; one without a document gives the defaults. -/
def ofText (t : Text) : Except SettingsError Settings := do
  match ← (Yaml.Document.read t).mapError .malformed with
  | none => .ok default
  | some d => (ofDocument d).mapError .misshapen

/-- The settings in a file, which is text. -/
def ofFile (t : FileTree) (path : Path) : Except SettingsError Settings := do
  let content ← (t.readFile path).mapError .unreadable
  match Utf8.decode? content with
  | some text => ofText text
  | none => .error .notText

/-- The settings that hold: those of the file that is named or else of the first one found. -/
def load (t : FileTree) (env : Environment) (named : Option Path) : Except SettingsError Settings := do
  let settings ← match named.orElse fun _ => (candidates env).find? t.exists? with
    | some path => if t.exists? path then ofFile t path else .ok default
    | none => .ok default
  return settings.override env

end Settings
end Infill
