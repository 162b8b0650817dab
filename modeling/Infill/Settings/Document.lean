import Infill.Settings.Basic
import Infill.Yaml.Document

/-!
# Settings in a document

Settings are written as a mapping in YAML.  A key that is not known is passed over; one that is known
stands once at most.  Every scalar is a text as it is written, whatever it looks like.
-/

set_option autoImplicit false

namespace Infill.Settings

/-- Why a document gives no settings. -/
inductive ShapeFault where
  | mappingExpected
  | textExpected
  | nullExpected
  | repeatedKey
  | missingKey
  deriving DecidableEq, Repr

namespace ShapeFault

/-- The wording of a fault. -/
def message : ShapeFault → String
  | mappingExpected => "a mapping is expected"
  | textExpected => "a text is expected"
  | nullExpected => "a null is expected"
  | repeatedKey => "a key is given twice"
  | missingKey => "a key is missing"

end ShapeFault

open Yaml (Node)

/-- A mapping of settings: its members by the texts of their keys. -/
abbrev Fields := List (Text × Node)

/-- The text of a node that is no list and no mapping. -/
def textOf (d : Yaml.Document) (node : Node) : Except ShapeFault Text :=
  match d.meaning node with
  | some (.scalar text _ _) => .ok text
  | _ => .error .textExpected

/-- The members of a mapping; where nothing is written there are none. -/
def fieldsOf (d : Yaml.Document) (node : Node) : Except ShapeFault Fields :=
  match d.meaning node with
  | some (.mapping members) => members.mapM fun (key, value) => do return (← textOf d key, value)
  | some other => if other.isEmpty then .ok [] else .error .mappingExpected
  | none => .error .mappingExpected

/-- The value of a key that is known. -/
def field? (fields : Fields) (key : String) : Except ShapeFault (Option Node) :=
  match fields.filter fun (k, _) => k == key.toList with
  | [] => .ok none
  | [(_, value)] => .ok (some value)
  | _ => .error .repeatedKey

/-- The text under a key that has to be there. -/
def requiredText (d : Yaml.Document) (fields : Fields) (key : String) : Except ShapeFault Text := do
  match ← field? fields key with
  | some node => textOf d node
  | none => .error .missingKey

/-- The tag of null. -/
def nullTag : Bytes := Utf8.encode "tag:yaml.org,2002:null".toList

/-- The plain texts that mean null. -/
def nullWords : List Text := ["null".toList, "Null".toList, "NULL".toList, "~".toList]

/-- The path that a node gives, if it gives one: a plain scalar may stand for none. -/
def optionalPath (d : Yaml.Document) (node : Node) : Except ShapeFault (Option Path) :=
  match d.meaning node with
  | some (.scalar text .plain tag) =>
    if tag = some nullTag then
      if nullWords.elem text then .ok none else .error .nullExpected
    else if tag.isNone && (text.isEmpty || nullWords.elem text) then .ok none
    else .ok (some text)
  | some (.scalar text _ _) => .ok (some text)
  | _ => .error .textExpected

/-- The path under a key that need not be there. -/
def pathUnder (d : Yaml.Document) (fields : Fields) (key : String) :
    Except ShapeFault (Option Path) := do
  match ← field? fields key with
  | some node => optionalPath d node
  | none => .ok none

/-- Two texts under the keys of a section; a section that is not there gives `absent`. -/
def pairUnder (d : Yaml.Document) (fields : Fields) (key first second : String)
    (absent : Text × Text) : Except ShapeFault (Text × Text) := do
  match ← field? fields key with
  | none => .ok absent
  | some node =>
    let inner ← fieldsOf d node
    return (← requiredText d inner first, ← requiredText d inner second)

/-- The variables that a mapping of texts gives. -/
def variablesOf (d : Yaml.Document) (node : Node) : Except ShapeFault Variables := do
  let fields ← fieldsOf d node
  return Keyed.ofList (← fields.mapM fun (key, value) => do return (key, ← textOf d value))

/-- The settings that a document gives; what is missing keeps its default. -/
def ofDocument (d : Yaml.Document) : Except ShapeFault Settings := do
  let fields ← fieldsOf d d.root
  let (opening, closing) ←
    pairUnder d fields "delimiters" "open" "close" (default.opening, default.closing)
  let defaultData ← pathUnder d fields "default_data"
  let masterData ← pathUnder d fields "master_data"
  let overrides ← match ← field? fields "variables" with
    | some node => variablesOf d node
    | none => pure []
  let (logLevel, logFormat) ←
    pairUnder d fields "logging" "level" "format" (default.logLevel, default.logFormat)
  return { opening, closing, defaultData, masterData, overrides, logLevel, logFormat }

end Infill.Settings
