import Infill.Files.Store

/-!
# Deleting empty folders

A walk through the folders below a root, which visits the folders inside a folder before the folder itself,
and deletes each folder that is empty when its turn comes.  Every step goes by the path of its folder, as that
was put together from the root and from the names on the way.  Links are not followed: they stand for content,
as files do.
-/

set_option autoImplicit false

namespace Infill

/-- An order in which a system lists the names of a folder. -/
structure Listing where
  names : FileTree → Location → List Text
  perm (t : FileTree) (folder : Location) : (names t folder).Perm (t.namesIn folder)

namespace Listing

/-- Listing by the alphabet. -/
def alphabetical : Listing := ⟨FileTree.namesIn, fun _ _ => .refl _⟩

/-- The names of the folders inside a folder. -/
def folders (listing : Listing) (t : FileTree) (folder : Location) : List Text :=
  (listing.names t folder).filter fun name => t.isFolderAt (folder ++ [name])

end Listing

namespace Files

/-- Deletes a folder if nothing stands in it. -/
def deleteIfEmpty (t : FileTree) (path : Path) : Except StoreError FileTree :=
  atPath path do
    let location ← t.openFolder path
    if (t.namesIn location).isEmpty then t.deleteFolder path else .ok t

/-- Visits one path after the other, until a visit fails. -/
def visitEach (visit : FileTree → Path → FileTree × Except StoreError Unit) :
    FileTree → List Path → FileTree × Except StoreError Unit
  | t, [] => (t, .ok ())
  | t, path :: paths =>
    match visit t path with
    | (t, .error e) => (t, .error e)
    | (t, .ok ()) => visitEach visit t paths

/-- Visits a folder with fewer than `levels` levels of folders below it: first those inside it, and then
itself. -/
def visitFolder (listing : Listing) : Nat → FileTree → Path → FileTree × Except StoreError Unit
  | 0, t, _ => (t, .ok ())
  | levels + 1, t, path =>
    match t.openFolder path with
    | .error fault => (t, .error (.walk path fault))
    | .ok location =>
      match visitEach (visitFolder listing levels) t ((listing.folders t location).map path.join) with
      | (t, .error e) => (t, .error e)
      | (t, .ok ()) =>
        match deleteIfEmpty t path with
        | .error e => (t, .error e)
        | .ok t => (t, .ok ())

/-- Deletes every empty folder at or below `root`, and those that are empty then.  A root that is no folder
itself, a link to a folder included, has nothing to delete. -/
def deleteEmptyFolders (listing : Listing) (t : FileTree) (root : Path) :
    FileTree × Except StoreError Unit :=
  match t.entryNamed root with
  | .ok (_, .folder) => visitFolder listing (t.depth + 1) t root
  | _ => (t, .ok ())

end Files
end Infill
