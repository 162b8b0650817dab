import Infill.Number.Numeral
import Infill.Settings.Load
import Infill.Template.Compile

/-!
# Reports of errors

Why a command failed, told from what was to be done down to its last cause.
-/

set_option autoImplicit false

namespace Infill

/-- Why a command failed. -/
inductive CommandError where
  | settings (error : SettingsError)
  | assignment (error : VariableError)
  /-- A document of default or of master data could not be read. -/
  | layer (path : Path) (error : StoreError)
  | compile (error : Template.CompileError)
  | output (path : Path) (error : StoreError)
  | split (path : Path) (error : Template.CompileError)
  | list (folder : Path) (error : StoreError)
  deriving DecidableEq, Repr

/-- An error of a store and its reason. -/
def StoreError.chain (e : StoreError) : List String := e.message :: e.reason?.toList

/-- An error of compiling and, if it came from the store, the error there. -/
def Template.CompileError.chain (e : CompileError) : List String :=
  match e with
  | .store cause => e.message :: cause.chain
  | other => [other.message]

namespace CommandError

/-- The first line that is told of an error. -/
def message : CommandError → String
  | settings error => error.message
  | assignment error => error.message
  | layer path _ => "Failed to read data layer '" ++ path.asString ++ "'"
  | compile _ => "Failed to compile template"
  | output path _ => "Failed to write output file '" ++ path.asString ++ "'"
  | split path _ => "Failed to split document '" ++ path.asString ++ "'"
  | list folder _ => "Failed to list files in '" ++ folder.asString ++ "'"

/-- Why it failed, from cause to cause. -/
def causes : CommandError → List String
  | settings _ => []
  | assignment _ => []
  | layer _ error => error.chain
  | compile error => error.chain
  | output _ error => error.chain
  | split _ error => error.chain
  | list _ error => error.chain

/-- The text with `indentation` behind every line break. -/
def indentLines (indentation : Text) (t : Text) : Text :=
  t.flatMap fun c => if c = '\n' then '\n' :: indentation else [c]

/-- A cause as it is listed; several are numbered. -/
def causeLine (number : Option Nat) (cause : Text) : Text :=
  let front := match number with
    | some n =>
      let digits := Numeral.ofNat n
      List.replicate (5 - digits.length) ' ' ++ digits ++ [':', ' ']
    | none => List.replicate 4 ' '
  front ++ indentLines (List.replicate front.length ' ') cause

/-- The lines about the causes of an error, numbered if there are several. -/
def causeLines (causes : List String) : List Text :=
  match causes with
  | [cause] => [causeLine none cause.toList]
  | causes => causes.zipIdx.map fun (cause, n) => causeLine (some n) cause.toList

/-- What is told of an error. -/
def report (e : CommandError) : Text :=
  let top := "Error: ".toList ++ e.message.toList
  match e.causes with
  | [] => top ++ ['\n']
  | causes =>
    top ++ "\n\nCaused by:\n".toList ++ Text.joinWith ['\n'] (causeLines causes) ++ ['\n']

end CommandError
end Infill
