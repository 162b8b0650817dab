import Infill.Entries
import Infill.Store.Documents

/-!
# Documents in memory

A map from paths to contents.  Paths with the same components are one key, and an entry keeps the
components only.  Main statements: what `get?` finds after `insert` and after `remove`.
-/

set_option autoImplicit false

namespace Infill

/-- Documents held in memory, by the components of their paths. -/
structure MemoryStore where
  entries : Entries (List Path.Component) Bytes
  deriving DecidableEq, Repr

namespace MemoryStore

/-- No document is there. -/
def empty : MemoryStore := ⟨[]⟩

/-- The document at a path, however the path is spelled. -/
def get? (s : MemoryStore) (path : Path) : Option Bytes := Entries.lookup path.components s.entries

/-- The store with a document at a path, in place of one that was there. -/
def insert (s : MemoryStore) (path : Path) (content : Bytes) : MemoryStore :=
  ⟨Entries.put path.components content s.entries⟩

/-- Takes a document away, if it is there. -/
def remove (s : MemoryStore) (path : Path) : MemoryStore := ⟨Entries.erase path.components s.entries⟩

/-- Takes the document at a path out of the store: its content, if there was one, and the store without it. -/
def take (s : MemoryStore) (path : Path) : Option Bytes × MemoryStore := (s.get? path, s.remove path)

/-- The store with these documents, of which a later one takes the place of an earlier one. -/
def ofList (documents : List (Path × Bytes)) : MemoryStore :=
  documents.foldl (fun s (path, content) => s.insert path content) empty

/-- The number of documents. -/
def size (s : MemoryStore) : Nat := s.entries.length

/-- Whether no document is there. -/
def isEmpty (s : MemoryStore) : Bool := s.entries.isEmpty

/-- The store as a template sees it. -/
def documents (s : MemoryStore) : Documents where
  isThere path := (s.get? path).isSome
  read path :=
    match s.get? path with
    | some content => .ok content
    | none => .error (.access path .noSuchDocument)

/-- An inserted document is found under every spelling of its path. -/
theorem get?_insert_of_components_eq {s : MemoryStore} {path other : Path} (content : Bytes)
    (h : other.components = path.components) : (s.insert path content).get? other = some content := by
  simp [get?, insert, h]

/-- Inserting a document changes no path with other components. -/
theorem get?_insert_of_components_ne {s : MemoryStore} {path other : Path} (content : Bytes)
    (h : other.components ≠ path.components) : (s.insert path content).get? other = s.get? other := by
  simp [get?, insert, Entries.lookup_put_of_ne h]

/-- Nothing is left under any spelling of a removed path. -/
theorem get?_remove_of_components_eq {s : MemoryStore} {path other : Path}
    (h : other.components = path.components) : (s.remove path).get? other = none := by
  simp [get?, remove, h, Entries.lookup_erase_self]

/-- Removing a document changes no path with other components. -/
theorem get?_remove_of_components_ne {s : MemoryStore} {path other : Path}
    (h : other.components ≠ path.components) : (s.remove path).get? other = s.get? other := by
  simp [get?, remove, Entries.lookup_erase_of_ne h]

end MemoryStore
end Infill
