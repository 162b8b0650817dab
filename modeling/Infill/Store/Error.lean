import Infill.Glob.Pattern
import Infill.Path

/-!
# Errors of stores

Why a document could not be reached, as a cause and the path that was asked for.
-/

set_option autoImplicit false

namespace Infill

/-- Why the system refused a path. -/
inductive SystemFault where
  | notFound
  | busy
  | notFolder
  | isFolder
  | invalid
  | nameTooLong
  | notEmpty
  | linkLoop
  /-- The path holds a zero character, which ends paths for the system. -/
  | zeroInPath
  deriving DecidableEq, Repr

namespace SystemFault

/-- The system's wording of a fault. -/
def message : SystemFault → String
  | notFound => "No such file or directory (os error 2)"
  | busy => "Device or resource busy (os error 16)"
  | notFolder => "Not a directory (os error 20)"
  | isFolder => "Is a directory (os error 21)"
  | invalid => "Invalid argument (os error 22)"
  | nameTooLong => "File name too long (os error 36)"
  | notEmpty => "Directory not empty (os error 39)"
  | linkLoop => "Too many levels of symbolic links (os error 40)"
  | zeroInPath => "file name contained an unexpected NUL byte"

end SystemFault

/-- Why a document could not be reached. -/
inductive AccessFault where
  | noSuchDocument
  /-- The file system refused it. -/
  | system (fault : SystemFault)
  deriving DecidableEq, Repr

namespace AccessFault

/-- The wording of a fault. -/
def message : AccessFault → String
  | noSuchDocument => "no such document"
  | system fault => fault.message

/-- Whether the reason is that nothing was there. -/
def isNotFound : AccessFault → Bool
  | noSuchDocument => true
  | system fault => fault == .notFound

end AccessFault

/-- What can go wrong in a store. -/
inductive StoreError where
  /-- A path could not be reached. -/
  | access (path : Path) (fault : AccessFault)
  /-- The folder under which others were to be made does not exist. -/
  | missingRoot (path : Path)
  | pattern (error : Glob.PatternError)
  /-- A folder could not be read on a search for files. -/
  | search (folder : Path) (fault : SystemFault)
  /-- A folder could not be listed on a walk through folders. -/
  | walk (path : Path) (fault : SystemFault)
  deriving DecidableEq, Repr

namespace StoreError

/-- What went wrong on a search, and where. -/
def searchMessage (folder : Path) (fault : SystemFault) : String :=
  "attempting to read `" ++ folder.asString ++ "` resulted in an error: " ++ fault.message

/-- What went wrong on a walk, and where. -/
def walkMessage (path : Path) (fault : SystemFault) : String :=
  "IO error for operation on " ++ path.asString ++ ": " ++ fault.message

/-- The wording of an error. -/
def message : StoreError → String
  | access path fault => "Failed to access " ++ path.asString ++ ": " ++ fault.message
  | missingRoot path => "Root folder " ++ path.asString ++ " does not exist"
  | pattern error => "Invalid glob pattern: " ++ error.message
  | search folder fault => "Failed to list files: " ++ searchMessage folder fault
  | walk path fault => "Failed to walk folder: " ++ walkMessage path fault

/-- The reason behind an error, where there is one to tell. -/
def reason? : StoreError → Option String
  | access _ fault => some fault.message
  | missingRoot _ => none
  | pattern error => some error.message
  | search folder fault => some (searchMessage folder fault)
  | walk path fault => some (walkMessage path fault)

/-- Whether the error says that nothing was there. -/
def isNotFound : StoreError → Bool
  | access _ fault => fault.isNotFound
  | _ => false

end StoreError
end Infill
