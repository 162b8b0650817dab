import Infill.Files.Tree
import Infill.Store.Error

/-!
# Walking along a path

A path is walked name by name from the root or from the working folder.  Links on the way are
followed, each at the cost of one from a budget, so that links which lead in a circle end the walk.
-/

set_option autoImplicit false

namespace Infill.FileTree

/-- So many links may be followed on the way to one entry. -/
def linkLimit : Nat := 40

/-- The longest name, in bytes. -/
def nameLimit : Nat := 255

/-- The longest path, in bytes. -/
def pathLimit : Nat := 4095

/-- Refuses a path that the system does not take, wherever it leads. -/
def checkPath (p : Path) : Except SystemFault Unit :=
  if p.elem '\x00' then .error .zeroInPath
  else if p = [] then .error .notFound
  else if pathLimit < (Utf8.encode p).length then .error .nameTooLong
  else .ok ()

/-- What stands under a name in a folder.  No name is looked up that is too long. -/
def lookUp (t : FileTree) (folder : Location) (name : Text) : Except SystemFault (Option Entry) :=
  if nameLimit < (Utf8.encode name).length then .error .nameTooLong
  else .ok (t.entryAt? (folder ++ [name]))

/-- Where a path starts that is met in the folder `here`. -/
def baseOf (here : Location) (p : Path) : Location := if Path.isAbsolute p then [] else here

/-- Walks on from `here` along some parts of a path.  A link is handed to `follow`, with the folder
that it stands in, its target, and the parts behind it. -/
def walkParts (t : FileTree)
    (follow : Location → Path → List Text → Except SystemFault (Location × Nat))
    (budget : Nat) (here : Location) : List Text → Except SystemFault (Location × Nat)
  | [] => .ok (here, budget)
  | part :: rest =>
    if !t.isFolderAt here then .error .notFolder
    else if part = [] ∨ part = ['.'] then walkParts t follow budget here rest
    else if part = ['.', '.'] then walkParts t follow budget here.dropLast rest
    else
      match t.lookUp here part with
      | .error fault => .error fault
      | .ok none => .error .notFound
      | .ok (some (.link target)) => follow here target rest
      | .ok (some _) => walkParts t follow budget (here ++ [part]) rest

/-- The entry that some parts of a path lead to from `here`, and what is left of the budget. -/
def walk (t : FileTree) : Nat → Location → List Text → Except SystemFault (Location × Nat)
  | 0, here, parts => walkParts t (fun _ _ _ => .error .linkLoop) 0 here parts
  | budget + 1, here, parts =>
    walkParts t (fun folder target rest =>
        walk t budget (baseOf folder target) (Text.splitOn '/' target ++ rest))
      (budget + 1) here parts

/-- The location of the entry that a path names, every link followed. -/
def find (t : FileTree) (p : Path) : Except SystemFault Location := do
  checkPath p
  return (← walk t linkLimit (baseOf t.workingFolder p) (Text.splitOn '/' p)).1

/-- Whether a path names anything that can be reached. -/
def exists? (t : FileTree) (p : Path) : Bool :=
  match t.find p with
  | .ok _ => true
  | .error _ => false

/-- Whether a path leads to a folder. -/
def isFolder (t : FileTree) (p : Path) : Bool :=
  match t.find p with
  | .ok location => t.isFolderAt location
  | .error _ => false

/-- Whether a path leads to a file. -/
def isFile (t : FileTree) (p : Path) : Bool :=
  match t.find p with
  | .ok location => (t.entryAt? location).any fun e => match e with | .file _ => true | _ => false
  | .error _ => false

/-- The location of the folder that a path names, to list what stands in it. -/
def openFolder (t : FileTree) (p : Path) : Except SystemFault Location := do
  let location ← t.find p
  if t.isFolderAt location then .ok location else .error .notFolder

/-- The content of the file that a path names. -/
def readFile (t : FileTree) (p : Path) : Except SystemFault Bytes := do
  match t.entryAt? (← t.find p) with
  | some (.file content) => .ok content
  | some _ => .error .isFolder
  | none => .error .notFound

/-- The last part of a path that is not empty, by what it means to the system. -/
inductive LastPart where
  | root
  | current
  | parent
  /-- The path ends in a name, and perhaps in slashes behind it. -/
  | name (n : Text) (slash : Bool)
  deriving DecidableEq, Repr

/-- The parts of a path up to the last one that is not empty, and that one. -/
def splitLast (p : Path) : List Text × LastPart :=
  let backwards := (Text.splitOn '/' p).reverse
  match backwards.dropWhile (·.isEmpty) with
  | [] => ([], .root)
  | last :: before =>
    (before.reverse,
      if last = ['.'] then .current
      else if last = ['.', '.'] then .parent
      else .name last (backwards.head? == some []))

/-- The folder in which the last part of a path is to be looked up, that part, and what is left of the
budget. -/
def findParentFrom (t : FileTree) (budget : Nat) (here : Location) (p : Path) :
    Except SystemFault (Location × LastPart × Nat) := do
  checkPath p
  let (before, last) := splitLast p
  let (folder, budget) ← walk t budget (baseOf here p) before
  if t.isFolderAt folder then .ok (folder, last, budget) else .error .notFolder

/-- The folder in which the last part of a path is to be looked up, and that part. -/
def findParent (t : FileTree) (p : Path) : Except SystemFault (Location × LastPart) :=
  (findParentFrom t linkLimit t.workingFolder p).map fun (folder, last, _) => (folder, last)

end Infill.FileTree
