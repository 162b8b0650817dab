import Infill.CommandLine.Program

/-!
# The command line

Looks at those files that the command line and the settings name, runs the program on them, and prints
and writes what it leaves.  A link is seen as one to the place that it finally leads to.
-/

set_option autoImplicit false

namespace Infill.Observed

/-- The location of an absolute path without links. -/
def locationOf (path : String) : Location :=
  (Text.splitOn '/' path.toList).filter (!·.isEmpty)

/-- The real path of something, if it can be reached. -/
def realPath? (path : String) : IO (Option String) := do
  try
    let real ← IO.FS.realPath path
    return if ← real.pathExists then some real.toString else none
  catch _ => return none

/-- Adds what stands at a real path. -/
def addReal (t : FileTree) (path : String) : IO FileTree := do
  let real ← IO.FS.realPath path
  let entry ←
    if ← real.isDir then pure Entry.folder
    else do
      let content ← IO.FS.readBinFile real
      pure (Entry.file content.toList)
  return if path = "/" then t else t.place (locationOf real.toString) entry

/-- Adds what a path names; a link is added with what it leads to. -/
def add (t : FileTree) (folder name : String) : IO FileTree := do
  let some parent ← realPath? folder | return t
  let here := (← IO.currentDir) / parent / name
  let some real ← realPath? here.toString | return t
  let t ← addReal t real
  let plain := parent ++ "/" ++ name
  if locationOf plain = locationOf real then return t
  else return t.place (locationOf plain) (.link real.toList)

/-- Adds everything on the way along a path. -/
def addAlong (t : FileTree) (path : Path) : IO FileTree := do
  let mut t := t
  let mut folder := if path.isAbsolute then "/" else "."
  for part in Text.splitOn '/' path do
    let name := part.asString
    if name = ".." then t := t
    else if !name.isEmpty && name != "." then t ← add t folder name
    folder := folder ++ "/" ++ name
  return t

/-- Adds everything in a folder and below it.  `seen` holds the real folders that were added. -/
partial def addFolder (t : FileTree) (seen : List String) (folder : String) :
    IO (FileTree × List String) := do
  let some real ← realPath? folder | return (t, seen)
  if seen.elem real then return (t, seen)
  let top ← IO.FS.realPath real
  unless ← top.isDir do return (t, seen)
  let mut t := t
  let mut seen := real :: seen
  for entry in ← top.readDir do
    t ← add t real entry.fileName
    (t, seen) ← addFolder t seen (real ++ "/" ++ entry.fileName)
  return (t, seen)

/-- The variables that are read, so far as they are set. -/
def environment : IO Settings.Environment := do
  let names := ["HOME", "RUST_LOG", "STENCIL_LOG_LEVEL", "STENCIL_LOG_FORMAT",
    "STENCIL_OPEN_DELIMITER", "STENCIL_CLOSE_DELIMITER"]
  let mut env := []
  for name in names do
    if let some value ← IO.getEnv name then
      env := env ++ [(name.toList, value.toList)]
  return env

/-- The files that an invocation may look at. -/
def files (env : Settings.Environment) (words : List Text) : IO FileTree := do
  let here ← IO.currentDir
  let mut t := FileTree.ofWorkingFolder (locationOf here.toString)
  if let .ok invocation := CommandLine.read words then
    for path in invocation.config.toList ++ Settings.candidates env do
      t ← addAlong t path
    if let .ok settings := Settings.load t env invocation.config then
      for path in Program.pathsOf settings invocation.command do
        t ← addAlong t path
    if let .list request := invocation.command then
      t ← addAlong t request.folder
      (t, _) ← addFolder t [] request.folder.asString
  return t

/-- The path to which a command line writes. -/
def outputPath? (words : List Text) : Option Path :=
  match CommandLine.read words with
  | .ok ⟨.compile request, _, _, _⟩ => request.output
  | _ => none

end Infill.Observed

open Infill in
/-- Runs the program on the files that can be seen. -/
def main (words : List String) : IO UInt32 := do
  let words := words.map String.toList
  let env ← Observed.environment
  let before ← Observed.files env words
  let outcome := Program.run before env words
  for complaint in outcome.complaints do
    IO.eprintln complaint
  for event in outcome.log do
    IO.eprintln event.line
  if let some path := Observed.outputPath? words then
    if let (0, .ok content) := (outcome.code, outcome.files.readFile path) then
      IO.FS.writeBinFile path.asString (ByteArray.mk content.toArray)
  IO.print outcome.output.asString
  IO.eprint outcome.report.asString
  return outcome.code.toUInt32
