import Infill.Json.Reader
import Infill.Log
import Infill.Text.Blank

/-!
# Document headers

A document may begin with a header: JSON data, its layout, between two fences of three hyphens.  What
stands behind the second fence is the body.  A document without a fence in front is all body.
-/

set_option autoImplicit false

namespace Infill

/-- A document with its header taken off. -/
structure LayoutDocument where
  layout : Option Json
  body : Text
  deriving Repr

/-- A header that is not JSON: the name of the document, and what is wrong. -/
structure HeaderError where
  name : Text
  reason : Json.ReadError
  deriving DecidableEq, Repr

namespace HeaderError

/-- The wording of an error. -/
def message (e : HeaderError) : String :=
  "Invalid format in " ++ e.name.asString ++ ": the layout must be formatted using JSON ("
    ++ e.reason.message ++ ")"

end HeaderError

namespace LayoutDocument

/-- The fence in front of a header and behind it. -/
def fence : Text := ['-', '-', '-']

/-- A fence is not empty. -/
theorem fence_ne_nil : fence ≠ [] := List.cons_ne_nil _ _

/-- The layout that the data of a header amounts to: an empty object stands for falsy data. -/
def layoutOf (data : Json) : Json := if data.isFalsy then .empty else data

/-- Takes the header off a document: with a fence in front, what stands between fences is taken apart, the
first section is the header, and the others are the body again. -/
def split (name text : Text) : Traced HeaderError LayoutDocument :=
  if fence.isPrefixOf text.trim then do
    let sections := (Text.pieces fence fence_ne_nil text.trim).drop 1
    let header := sections.headD []
    let data ← Traced.ofExcept ((Json.readText header).mapError (HeaderError.mk name))
    Traced.say .debug .layout ("Found layout header in " ++ name.asString)
    pure ⟨some (layoutOf data), Text.joinWith fence (sections.drop 1)⟩
  else pure ⟨none, text⟩

/-- The parts of a document as one value, the layout first. -/
def toJson (d : LayoutDocument) : Json :=
  .object [("layout".toList, d.layout.getD .null), ("body".toList, .string d.body)]

end LayoutDocument
end Infill
