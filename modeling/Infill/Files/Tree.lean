import Infill.Entries
import Infill.Path
import Infill.Text.Utf8

/-!
# File trees

A file tree is a finite map from locations to entries: a location is the list of names that lead
from the root to it, and an entry is a file with its content, a symbolic link with its target, or a
folder.  Main statements: what `entryAt?` finds after `put` and after `remove`.
-/

set_option autoImplicit false

namespace Infill

/-- The names that lead from the root to an entry. -/
abbrev Location := List Text

/-- What stands at a location. -/
inductive Entry where
  | file (content : Bytes)
  | link (target : Path)
  | folder
  deriving DecidableEq, Repr

/-- A tree of files, and the working folder to which relative paths refer. -/
structure FileTree where
  entries : Entries Location Entry
  workingFolder : Location
  deriving DecidableEq, Repr

namespace FileTree

/-- What stands at a location; at the root there is always a folder. -/
def entryAt? (t : FileTree) (location : Location) : Option Entry :=
  if location = [] then some .folder else Entries.lookup location t.entries

/-- Whether a folder stands at a location. -/
def isFolderAt (t : FileTree) (location : Location) : Bool := t.entryAt? location == some .folder

/-- The tree with an entry at a location, in place of what was there. -/
def put (t : FileTree) (location : Location) (entry : Entry) : FileTree :=
  { t with entries := Entries.put location entry t.entries }

/-- The tree without what stands at a location. -/
def remove (t : FileTree) (location : Location) : FileTree :=
  { t with entries := Entries.erase location t.entries }

/-- Whether a location is inside another one, at any depth. -/
def isBelow (top location : Location) : Bool := top.isPrefixOf location && top != location

/-- The tree without what is inside a folder. -/
def clear (t : FileTree) (top : Location) : FileTree :=
  { t with entries := Entries.keepKeys (fun l => !isBelow top l) t.entries }

/-- The name of what stands at a location, if it stands in `folder`. -/
def nameIn? (folder location : Location) : Option Text :=
  if location.dropLast = folder then location.getLast? else none

/-- The names of the entries of a folder, in alphabetical order. -/
def namesIn (t : FileTree) (folder : Location) : List Text :=
  (t.entries.filterMap fun (l, _) => nameIn? folder l).mergeSort Text.le

/-- The number of names that lead to the lowest entry. -/
def depth (t : FileTree) : Nat := t.entries.foldr (fun (l, _) deepest => max l.length deepest) 0

/-- The tree with the folders that lead to a location, and with an entry there. -/
def place (t : FileTree) (location : Location) (entry : Entry) : FileTree :=
  let folders := (List.range (location.length - 1)).map fun n => location.take (n + 1)
  (folders.foldl (fun t l => t.put l .folder) t).put location entry

/-- The tree in which nothing but the way to the working folder stands. -/
def ofWorkingFolder (folder : Location) : FileTree :=
  ⟨(List.range folder.length).map fun n => (folder.take (n + 1), .folder), folder⟩

/-- A name in a folder is the last one of the location. -/
theorem nameIn?_eq_some_iff {folder location : Location} {name : Text} :
    nameIn? folder location = some name ↔ location = folder ++ [name] := by
  unfold nameIn?
  constructor
  · intro h
    split at h
    · rename_i hfolder
      obtain ⟨front, rfl⟩ := List.getLast?_eq_some_iff.1 h
      rw [List.dropLast_concat] at hfolder
      rw [hfolder]
    · cases h
  · rintro rfl
    rw [if_pos List.dropLast_concat, List.getLast?_concat]

/-- What was put at a location stands there. -/
theorem entryAt?_put_self {t : FileTree} {location : Location} (h : location ≠ []) (entry : Entry) :
    (t.put location entry).entryAt? location = some entry := by
  simp [entryAt?, put, h]

/-- At other locations nothing changes when something is put. -/
theorem entryAt?_put_of_ne {t : FileTree} {location other : Location} (h : other ≠ location)
    (entry : Entry) : (t.put location entry).entryAt? other = t.entryAt? other := by
  simp [entryAt?, put, Entries.lookup_put_of_ne h]

/-- At other locations nothing changes when something is removed. -/
theorem entryAt?_remove_of_ne {t : FileTree} {location other : Location} (h : other ≠ location) :
    (t.remove location).entryAt? other = t.entryAt? other := by
  simp [entryAt?, remove, Entries.lookup_erase_of_ne h]

/-- Nothing stands at a location from which it was removed. -/
theorem entryAt?_remove_self {t : FileTree} {location : Location} (h : location ≠ []) :
    (t.remove location).entryAt? location = none := by
  simp [entryAt?, remove, h, Entries.lookup_erase_self]

/-- Clearing a folder takes away exactly what lies below it. -/
theorem entryAt?_clear (t : FileTree) (top location : Location) :
    (t.clear top).entryAt? location = if isBelow top location then none else t.entryAt? location := by
  by_cases h : location = []
  · subst h
    cases top <;> simp [entryAt?, isBelow]
  · by_cases hb : isBelow top location
    · simp [entryAt?, clear, h, Entries.lookup_keepKeys, hb]
    · simp [entryAt?, clear, h, Entries.lookup_keepKeys, hb]

end FileTree
end Infill
