import Infill.Data.Merge

/-!
# Variables

Variables override data: `site.title=Home` puts a string at a dotted key.  A map of variables
amounts to a layer of data, one nested object for each key, merged in the order of the keys.
-/

set_option autoImplicit false

namespace Infill

/-- Variables, the last value of each key. -/
abbrev Variables := Keyed Text

/-- An assignment without an equals sign. -/
structure VariableError where
  assignment : Text
  deriving DecidableEq, Repr

/-- What is said of an assignment without an equals sign. -/
def VariableError.message (e : VariableError) : String :=
  "Invalid variable format '" ++ e.assignment.asString ++ "'. Expected 'key=value'"

namespace Variables

/-- The key and the value of an assignment, cut at the first equals sign. -/
def parseAssignment (assignment : Text) : Except VariableError (Text × Text) :=
  match Text.cutAtFirst? ['='] assignment with
  | some keyAndValue => .ok keyAndValue
  | none => .error ⟨assignment⟩

/-- The variables that some assignments set, the last one of each key. -/
def parse (assignments : List Text) : Except VariableError Variables :=
  (assignments.mapM parseAssignment).map Keyed.ofList

/-- The variables of `old` with those of `new` in their place. -/
def update (old new : Variables) : Variables :=
  new.foldl (fun m (key, value) => Keyed.insert key value m) old

/-- The segments of a dotted key; empty ones do not count. -/
def segments (key : Text) : List Text := (Text.splitOn '.' key).filter (!·.isEmpty)

/-- The object in which a value stands alone at the end of some segments, if there are any. -/
def nest (value : Text) : List Text → Option Json
  | [] => none
  | segment :: rest => some (.object [(segment, (nest value rest).getD (.string value))])

/-- The variables in the order of their keys, however they are stored. -/
def inOrder (v : Variables) : Variables := v.mergeSort fun a b => Text.le a.1 b.1

/-- The objects of some variables, in the order in which they stand. -/
def layers (v : Variables) : List Json := v.filterMap fun (key, value) => nest value (segments key)

/-- The layer of data that some variables amount to.  They are put in order first, so that a key comes before
those that go on behind it. -/
def toJson (v : Variables) : Json := Data.merge v.inOrder.layers

end Variables
end Infill
