import Infill.Files.Walk
import Infill.Glob.Match

/-!
# Searching for files

The paths of a file tree that a pattern stands for.  The components of the pattern are followed from
place to place: a component without wildcards names its entry, any other is tried on the entries
of the folder in alphabetical order, and `**` is also tried on every folder below.

A folder that is met among the entries of another one is known by its kind, before anything is asked
about its own path.  So a path that has grown too long for the system shows only when the folder is to
be read, as an error among the paths that are found.
-/

set_option autoImplicit false

namespace Infill.Glob

/-- A folder that was met on a search and could not be read. -/
structure SearchError where
  folder : Path
  fault : SystemFault
  deriving DecidableEq, Repr

/-- A place that a search has come to. -/
structure Place where
  path : Path
  /-- Whether a folder was seen there. -/
  isFolder : Bool
  deriving DecidableEq, Repr

/-- The place that a path leads to, links followed. -/
def Place.ofPath (t : FileTree) (path : Path) : Place := ⟨path, t.isFolder path⟩

/-- The place of an entry that a folder lists.  What kind of entry it is stands in the folder; only where
a link leads has to be asked by the path. -/
def Place.ofEntry (t : FileTree) (location : Location) (path : Path) : Place where
  path := path
  isFolder :=
    match t.entryAt? location with
    | some (.link _) => t.isFolder path
    | _ => t.isFolderAt location

/-- The path of an entry named in the folder `scope`; in `.` the name alone. -/
def below (scope : Path) (name : Text) : Path :=
  if scope.components = [.current] then name else scope.join name

/-- The pattern reads `.` or `..`, which name no entry of a folder. -/
def isStep (name : Text) : Bool := name == ['.'] || name == ['.', '.']

/-- The steps `..` and `.` so far as a pattern matches them; only one that begins with a point does. -/
def stepsMatched (p : Pattern) : List Text :=
  if p.head? = some (.char '.') then [['.', '.'], ['.']].filter p.matches else []

/-- What is met on the way along a list of components from `scope`: the paths that they lead to, with
`foldersOnly` those of folders, and the folders that cannot be read.  Each round goes one entry or one
component further down.

A link that leads nowhere is left out, as no file stands behind it. -/
def follow (t : FileTree) (foldersOnly : Bool) :
    Nat → Place → List Pattern → List (Except SearchError Path)
  | 0, _, _ => []
  | _ + 1, _, [] => []
  | rounds + 1, scope, p :: ps =>
    let arrive (place : Place) (rest : List Pattern) : List (Except SearchError Path) :=
      if rest.isEmpty then (if foldersOnly && !place.isFolder then [] else [.ok place.path])
      else follow t foldersOnly rounds place rest
    match p.literal? with
    | some name =>
      let path := below scope.path name
      if (if isStep name then scope.isFolder else t.exists? path) then arrive (.ofPath t path) ps else []
    | none =>
      if !scope.isFolder then []
      else
        match t.openFolder scope.path with
        | .error fault => [.error ⟨scope.path, fault⟩]
        | .ok folder =>
          (stepsMatched p).flatMap (fun step => arrive (.ofPath t (scope.path.join step)) ps) ++
          (t.namesIn folder).flatMap fun name =>
            let place := Place.ofEntry t (folder ++ [name]) (below scope.path name)
            if p.isAnyFolders then
              let rest := ps.dropWhile (·.isAnyFolders)
              let inside := if place.isFolder then follow t foldersOnly rounds place (p :: rest) else []
              match rest with
              | [] => if place.isFolder then .ok place.path :: inside else []
              | q :: qs => (if q.matches name then arrive place qs else []) ++ inside
            else if p.matches name then arrive place ps
            else []

/-- Enough rounds for every path of a tree: between two links a path only goes down. -/
def roundsFor (t : FileTree) (components : List Pattern) : Nat :=
  (FileTree.linkLimit + 1) * (t.entries.length + 1) + components.length + 1

/-- The components of a pattern, without the slash in front and the one behind. -/
def componentsOf (pattern : Text) : List Text :=
  let parts := Text.splitOn '/' (if Path.isAbsolute pattern then pattern.drop 1 else pattern)
  if parts.getLast? = some [] ∧ 1 < parts.length then parts.dropLast else parts

/-- What a search for a pattern meets in a tree: the paths that the pattern stands for, and the folders
that cannot be read, in this order.  The pattern is read as a whole first and then component by
component. -/
def search (t : FileTree) (pattern : Text) : Except PatternError (List (Except SearchError Path)) := do
  let _ ← Pattern.parse pattern
  let components ← (componentsOf pattern).mapM Pattern.parse
  let start : Path := if Path.isAbsolute pattern then ['/'] else ['.']
  .ok (follow t (pattern.getLast? == some '/') (roundsFor t components) (.ofPath t start) components)

end Infill.Glob
