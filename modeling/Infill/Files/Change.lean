import Infill.Files.Walk

/-!
# Changing a file tree

Making and deleting folders, writing and deleting files.  Each change names one entry by a path;
the last part of the path is what is changed, and only writing follows a link that stands there.
A change that can stop half way gives the tree as it then is.
-/

set_option autoImplicit false

namespace Infill.FileTree

/-- Makes a folder where nothing stands yet; `none` says that something stands there already. -/
def makeFolder (t : FileTree) (p : Path) : Except SystemFault (Option FileTree) := do
  match ← t.findParent p with
  | (folder, .name n _) =>
    if (← t.lookUp folder n).isSome then .ok none
    else .ok (some (t.put (folder ++ [n]) .folder))
  | _ => .ok none

/-- Deletes what is no folder, a link itself included. -/
def deleteFile (t : FileTree) (p : Path) : Except SystemFault FileTree := do
  match ← t.findParent p with
  | (folder, .name n slash) =>
    match ← t.lookUp folder n with
    | none => .error .notFound
    | some .folder => .error .isFolder
    | some _ => if slash then .error .notFolder else .ok (t.remove (folder ++ [n]))
  | _ => .error .isFolder

/-- Deletes a folder that is empty. -/
def deleteFolder (t : FileTree) (p : Path) : Except SystemFault FileTree := do
  match ← t.findParent p with
  | (_, .root) => .error .busy
  | (_, .current) => .error .invalid
  | (_, .parent) => .error .notEmpty
  | (folder, .name n _) =>
    match ← t.lookUp folder n with
    | none => .error .notFound
    | some .folder =>
      if (t.namesIn (folder ++ [n])).isEmpty then .ok (t.remove (folder ++ [n]))
      else .error .notEmpty
    | some _ => .error .notFolder

/-- The location at which a path would be written.  Each round follows a link at the end of the path. -/
def placeToWrite (t : FileTree) : Nat → Nat → Location → Path → Except SystemFault Location
  | 0, _, _, _ => .error .linkLoop
  | rounds + 1, budget, here, p => do
    match ← findParentFrom t budget here p with
    | (folder, .name n false, budget) =>
      match ← t.lookUp folder n with
      | some .folder => .error .isFolder
      | some (.link target) =>
        if budget = 0 then .error .linkLoop else placeToWrite t rounds (budget - 1) folder target
      | _ => .ok (folder ++ [n])
    | _ => .error .isFolder

/-- Writes a file, in place of the content that it had.  What can fail is to find its place, before anything
is written. -/
def writeFile (t : FileTree) (p : Path) (content : Bytes) : Except SystemFault FileTree := do
  let location ← placeToWrite t (linkLimit + 1) linkLimit t.workingFolder p
  .ok (t.put location (.file content))

/-- The entry that a path names, and its location; a link at the end of the path is not followed
unless a slash stands behind it. -/
def entryNamed (t : FileTree) (p : Path) : Except SystemFault (Location × Entry) := do
  let (location, entry) ← match t.findParent p with
    | .ok (folder, .name n false) => do pure (folder ++ [n], ← t.lookUp folder n)
    | _ => do
      let location ← t.find p
      pure (location, t.entryAt? location)
  match entry with
  | some entry => .ok (location, entry)
  | none => .error .notFound

/-- Deletes what a path names with everything in it: a link itself, a folder with its content.  What is
inside goes first, so a path that cannot be deleted itself leaves an empty folder. -/
def deleteAll (t : FileTree) (p : Path) : FileTree × Except SystemFault Unit :=
  match t.entryNamed p with
  | .error fault => (t, .error fault)
  | .ok (_, .file _) => (t, .error .notFolder)
  | .ok (_, .link _) =>
    match t.deleteFile p with
    | .ok t => (t, .ok ())
    | .error fault => (t, .error fault)
  | .ok (location, .folder) =>
    let cleared := t.clear location
    match cleared.deleteFolder p with
    | .ok t => (t, .ok ())
    | .error .notFound => (cleared, .ok ())
    | .error fault => (cleared, .error fault)

end Infill.FileTree
