import Infill.Files.Change
import Infill.Glob.Search
import Infill.Json.Printer
import Infill.Store.Documents

/-!
# Documents in files

A file tree as a store: reading documents, writing them, making and deleting folders, and listing
files by patterns.  What can stop half way gives the tree as it then is, beside the error.
-/

set_option autoImplicit false

namespace Infill.Files

/-- Puts the fault of a path as an error of the store. -/
def atPath {α : Type} (path : Path) (result : Except SystemFault α) : Except StoreError α :=
  result.mapError fun fault => .access path (.system fault)

/-- The store as a template sees it. -/
def documents (t : FileTree) : Documents where
  isThere := t.exists?
  read path := atPath path (t.readFile path)

/-- Writes a text to a file, which is made if it is missing. -/
def write (t : FileTree) (path : Path) (content : Text) : Traced StoreError FileTree := do
  let bytes := Utf8.encode content
  let t ← Traced.ofExcept (atPath path (t.writeFile path bytes))
  Traced.say .debug .files ("Wrote " ++ toString bytes.length ++ " bytes to " ++ path.asString)
  pure t

/-- Writes a value to a file, in lines with indentation. -/
def writeJson (t : FileTree) (path : Path) (value : Json) : Traced StoreError FileTree :=
  write t path (Json.pretty value)

/-- Deletes a file. -/
def delete (t : FileTree) (path : Path) : Except StoreError FileTree :=
  atPath path (t.deleteFile path)

/-- Makes a folder, unless something stands there already. -/
def createFolder (t : FileTree) (path : Path) : Except StoreError FileTree :=
  (atPath path (t.makeFolder path)).map (·.getD t)

/-- Deletes a folder with everything in it; one that is missing needs no deleting. -/
def deleteFolder (t : FileTree) (path : Path) : FileTree × Except StoreError Unit :=
  match t.deleteAll path with
  | (t, .error .notFound) => (t, .ok ())
  | (t, result) => (t, atPath path result)

/-- Makes a chain of folders below `current`, each in the one before. -/
def createChain (deletePrevious : Bool) :
    FileTree → Path → List Path → FileTree × Except StoreError Path
  | t, current, [] => (t, .ok current)
  | t, current, folder :: folders =>
    let next := current.join folder
    let (t, deleted) := if t.exists? next && deletePrevious then deleteFolder t next else (t, .ok ())
    match deleted with
    | .error e => (t, .error e)
    | .ok () =>
      match createFolder t next with
      | .error e => (t, .error e)
      | .ok t => createChain deletePrevious t next folders

/-- Makes a chain of folders below a root that has to be there, and gives the path of the deepest.
With `deletePrevious` what stood at one of them goes first. -/
def createFolders (t : FileTree) (root : Path) (folders : List Path) (deletePrevious : Bool) :
    FileTree × Except StoreError Path :=
  if t.exists? root then createChain deletePrevious t root folders
  else (t, .error (.missingRoot root))

/-- The pattern that stands for the files of a folder when none is given: a name with a point. -/
def defaultPattern : Text := ['*', '.', '*']

/-- The paths without those whose components occurred before. -/
def distinct (paths : List Path) : List Path :=
  (paths.foldl (fun found path =>
    if found.any fun other => other.components == path.components then found else path :: found)
    []).reverse

/-- The text of a pattern behind a folder.  The path of the folder becomes a part of the pattern as it
stands; bytes of it that are not UTF-8 would be lost. -/
def joinPattern (folder : Path) (pattern : Text) : Text :=
  Utf8.decodeLossy (Utf8.encode (folder.join pattern))

/-- The paths that a search finds, if it can read all folders that it meets. -/
def searchFor (t : FileTree) (pattern : Text) : Except StoreError (List Path) := do
  let met ← (Glob.search t pattern).mapError .pattern
  met.mapM fun path => path.mapError fun e => .search e.folder e.fault

/-- The files below a folder that one of `patterns` stands for and none of `ignored` matches. -/
def listFiles (t : FileTree) (folder : Path) (patterns ignored : List Text) :
    Traced StoreError (List Path) := do
  let patterns := if patterns.isEmpty then [defaultPattern] else patterns
  let ignored ← Traced.ofExcept
    ((ignored.mapM fun p => Glob.Pattern.parse (joinPattern folder p)).mapError .pattern)
  let found ← Traced.ofExcept (patterns.mapM fun p => searchFor t (joinPattern folder p))
  let files := distinct (found.flatten.filter fun path =>
    t.isFile path && !ignored.any (·.matches path))
  Traced.say .debug .files
    ("Found " ++ toString files.length ++ " files under " ++ folder.asString)
  pure files

/-- The path that a user means: the working folder where nothing is given, and what begins like an
absolute path or like a home folder as it stands. -/
def absolutePath (workingFolder : Path) (path : Option Text) : Path :=
  match path with
  | none | some [] => workingFolder
  | some (c :: rest) =>
    if c = '/' ∨ c = '\\' ∨ c = '~' then c :: rest else workingFolder.join (c :: rest)

end Infill.Files
