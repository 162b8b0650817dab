import Infill.Data.Merge
import Infill.Document.Header
import Infill.Store.Documents
import Infill.Template.Render
import Infill.Template.Source

/-!
# Compiling templates

A template is read, its data are gathered in three layers, of which the middle one may be a document,
and the template is filled with what the layers amount to.
-/

set_option autoImplicit false

namespace Infill.Template

/-- Why a template cannot be compiled or a document cannot be split. -/
inductive CompileError where
  /-- The path of the data does not name a JSON document. -/
  | dataPath (path : Path)
  /-- The header of a document is malformed. -/
  | header (error : HeaderError)
  | scan (error : ScanError)
  | store (error : StoreError)
  deriving DecidableEq, Repr

namespace CompileError

/-- The wording of an error. -/
def message : CompileError → String
  | dataPath path => "Validation error: data path '" ++ path.asString ++ "' must be a json file"
  | header error => error.message
  | scan error => "Template syntax error: " ++ error.message
  | store error => "Store error: " ++ error.message

end CompileError

/-- What to compile: a template, its data, the layers below and above the data, and the delimiters. -/
structure CompileOptions where
  template : TemplateSource
  data : Option DataSource
  defaults : Option Json
  master : Option Json
  delimiters : Delimiters
  deriving Repr

/-- The extension that a document of data has to have. -/
def dataExtension : Text := ['j', 's', 'o', 'n']

/-- The text of a template; bytes that are not text are replaced. -/
def loadTemplate (documents : Documents) : TemplateSource → Except StoreError Text
  | .inline content => .ok content
  | .path path => (documents.read path).map Utf8.decodeLossy

/-- The data of a document, which need not exist. -/
def loadDataFile (documents : Documents) (path : Path) : Traced CompileError Json :=
  if path.extension? ≠ some dataExtension then Traced.fail (.dataPath path)
  else if documents.isThere path then (documents.readJson path).mapError .store
  else do
    Traced.say .info .compiler
      ("Data file " ++ path.asString ++ " does not exist, using empty data")
    pure .empty

/-- The data of a template; no source is no data. -/
def loadData (documents : Documents) : Option DataSource → Traced CompileError Json
  | none => pure .empty
  | some (.inline value) => pure value
  | some (.path path) => loadDataFile documents path

/-- Fills a template with its layers of data.  A template that is empty, or whose path is, gives the
empty text, and nothing is read for it. -/
def compile (documents : Documents) (options : CompileOptions) : Traced CompileError Text :=
  if options.template.isEmpty then pure []
  else do
    Traced.say .debug .compiler ("Compiling " ++ options.template.kind ++ " template")
    let template ← Traced.ofExcept ((loadTemplate documents options.template).mapError .store)
    let data ← loadData documents options.data
    let context :=
      Data.merge [options.defaults.getD .empty, data, options.master.getD .empty]
    (render template context options.delimiters).mapError .scan

/-- Reads a document and takes its header off. -/
def splitDocument (documents : Documents) (path : Path) : Traced CompileError LayoutDocument := do
  let content ← Traced.ofExcept ((documents.read path).mapError .store)
  (LayoutDocument.split path (Utf8.decodeLossy content)).mapError .header

end Infill.Template
