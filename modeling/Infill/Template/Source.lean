import Infill.Json.Reader
import Infill.Path
import Infill.Template.Delimiters

/-!
# Sources

A template and its data are given as they are or as the path of a document.  Where the caller does
not say which, it is guessed: a path is one line and holds no opening delimiter.
-/

set_option autoImplicit false

namespace Infill.Template

/-- Whether a text may be meant as a path. -/
def looksLikePath (value : Text) (d : Delimiters) : Bool :=
  !value.isEmpty && !value.elem '\n' && !Text.contains value d.opening

/-- Where a template comes from: it is given as a text, or by the path of a document. -/
inductive TemplateSource where
  | inline (content : Text)
  | path (p : Path)
  deriving DecidableEq, Repr

namespace TemplateSource

/-- The source that a text is guessed to mean. -/
def detect (value : Text) (d : Delimiters) : TemplateSource :=
  if looksLikePath value d then .path value else .inline value

/-- Whether nothing is given. -/
def isEmpty : TemplateSource → Bool
  | inline content => content.isEmpty
  | path p => p.isEmpty

/-- The word for where a template comes from. -/
def kind : TemplateSource → String
  | inline _ => "inline"
  | path _ => "path"

end TemplateSource

/-- Where the data of a template is. -/
inductive DataSource where
  | inline (value : Json)
  | path (p : Path)
  deriving Repr

namespace DataSource

/-- The source that a text is guessed to mean: an object if it reads as one, else a path if it looks
like one, and no data otherwise. -/
def detect (value : Text) (d : Delimiters) : DataSource :=
  match Json.readText value with
  | .ok (.object members) => .inline (.object members)
  | _ => if looksLikePath value d then .path value else .inline .empty

end DataSource
end Infill.Template
