import Infill.Json.Basic
import Infill.Number.Numeral

/-!
# Dotted paths

`site.pages.0.title` names a node of some data: each segment is a key of an object or an index of an
array, and empty segments are passed over.  A walk that meets a falsy node stops there, so that a
value which is absent for good reason is told apart from a path that leads nowhere.
-/

set_option autoImplicit false

namespace Infill.Data

/-- Indices are numbers of 64 bits. -/
def indexLimit : Nat := Nat.pow 2 64

/-- The index that a segment names: digits, with a plus sign at most in front. -/
def index? (segment : Text) : Option Nat :=
  match segment with
  | '+' :: digits => Numeral.below? indexLimit digits
  | digits => Numeral.below? indexLimit digits

/-- What stands under a segment: a member of an object, or an element of an array. -/
def child? (value : Json) (segment : Text) : Option Json :=
  match value with
  | .object members => Keyed.get? segment members
  | .array items => (index? segment).bind (items[·]?)
  | _ => none

/-- Walks down from a node segment by segment, and no further than the first falsy node. -/
def walk? (current : Json) : List Text → Option Json
  | [] => some current
  | segment :: segments =>
    if current.isFalsy then some current
    else if segment.isEmpty then walk? current segments
    else (child? current segment).bind (walk? · segments)

/-- The node that a dotted path names.  The empty path names nothing, and nothing is named below a
falsy root. -/
def resolve (value : Json) (path : Text) : Option Json :=
  if path.isEmpty || value.isFalsy then none
  else walk? value (Text.splitOn '.' path)

end Infill.Data
