import Infill.Json.Reader
import Infill.Log
import Infill.Store.Error
import Infill.Text.Blank

/-!
# Documents

What a template needs of a store: to ask whether a document is there, and to read it.  A document of
data that is blank, null or malformed counts as an empty object, so that data never stops a template
from being filled.
-/

set_option autoImplicit false

namespace Infill

/-- The documents of a store, as they can be looked at. -/
structure Documents where
  /-- Whether a path names something. -/
  isThere : Path → Bool
  read : Path → Except StoreError Bytes

namespace Documents

/-- The data that a document holds: an empty object stands for blank, null and malformed content, of
which the last is worth a warning. -/
def dataOf {ε : Type} (path : Path) (content : Bytes) : Traced ε Json :=
  if content.all isBlankByte then pure .empty
  else
    match Json.read content with
    | .ok .null => pure .empty
    | .ok value => pure value
    | .error e => do
      Traced.say .warn .documents ("Ignoring malformed JSON in " ++ path.asString ++ ": " ++ e.message)
      pure .empty

/-- Reads a document of data. -/
def readJson (documents : Documents) (path : Path) : Traced StoreError Json := do
  let content ← Traced.ofExcept (documents.read path)
  dataOf path content

end Documents
end Infill
