import Infill.CommandLine.Action
import Infill.CommandLine.Arguments
import Infill.CommandLine.LogFilter
import Infill.CommandLine.Report
import Infill.Files.Store
import Infill.Text.Quoted

/-!
# The program

What a command line does with a file tree: what it prints, what it logs, what it reports, and the tree
that it leaves.  Commands are actions, so that a run that fails ends with what it had done by then.
-/

set_option autoImplicit false

namespace Infill.Program

open Template

/-- Says what a user may want to know of a command. -/
def inform (message : String) : Action CommandError Unit :=
  Action.look fun _ => Traced.say .info .commands message

/-- The data of a layer that is asked for. -/
def readLayer (t : FileTree) (path : Path) : Traced CommandError Json :=
  ((Files.documents t).readJson path).mapError (.layer path)

/-- The data of a layer, if it is asked for. -/
def readLayer? (t : FileTree) : Option Path → Traced CommandError (Option Json)
  | none => pure none
  | some path => do return some (← readLayer t path)

/-- The settings that hold for one request: its variables and delimiters go before. -/
def settingsFor (settings : Settings) (request : CompileRequest) :
    Except VariableError Settings := do
  let assigned ← Variables.parse request.assignments
  return { settings with
    overrides := settings.overrides.update assigned
    opening := request.opening.getD settings.opening
    closing := request.closing.getD settings.closing }

/-- The template of a request, which says itself whether it is a text or a path, or is looked at. -/
def templateOf (request : CompileRequest) (d : Delimiters) : TemplateSource :=
  if request.inline then .inline request.template
  else if request.file then .path request.template
  else .detect request.template d

/-- What is to be compiled for a request.  The variables lie over the document of master data. -/
def optionsFor (t : FileTree) (settings : Settings) (request : CompileRequest) :
    Traced CommandError CompileOptions := do
  let d := settings.delimiters
  let defaults ← readLayer? t (request.defaults.orElse fun _ => settings.defaultData)
  let master ← readLayer? t (request.master.orElse fun _ => settings.masterData)
  pure {
    template := templateOf request d
    data := request.data.map (DataSource.detect · d)
    defaults := defaults
    master := some (Data.merge [master.getD .empty, settings.overrides.toJson])
    delimiters := d }

/-- The text that a request to compile comes to in a tree of files. -/
def compiledText (t : FileTree) (settings : Settings) (request : CompileRequest) :
    Traced CommandError Text := do
  let settings ← Traced.ofExcept ((settingsFor settings request).mapError .assignment)
  let options ← optionsFor t settings request
  (compile (Files.documents t) options).mapError .compile

/-- Hands a text over: writes it where it is to go, or prints it. -/
def deliver (output : Option Path) (text : Text) : Action CommandError Unit :=
  match output with
  | some path => do
    Action.update fun t => (Files.write t path text).mapError (.output path)
    inform ("Compiled template written to " ++ path.asString)
  | none => Action.print text

/-- Compiles a template step by step, and hands the text over. -/
def runCompile (settings : Settings) (request : CompileRequest) : Action CommandError Unit := do
  let settings ← Action.look fun _ =>
    Traced.ofExcept ((settingsFor settings request).mapError .assignment)
  let options ← Action.look fun t => optionsFor t settings request
  let text ← Action.look fun t => (compile (Files.documents t) options).mapError .compile
  deliver request.output text

/-- What a request to split prints of a document. -/
def splitOutput (request : SplitRequest) (d : LayoutDocument) : Text :=
  if request.layoutOnly then (d.layout.getD .null).pretty ++ ['\n']
  else if request.bodyOnly then d.body
  else d.toJson.pretty ++ ['\n']

/-- Splits a document and prints what the request asks for. -/
def runSplit (request : SplitRequest) : Action CommandError Unit := do
  let d ← Action.look fun t =>
    (splitDocument (Files.documents t) request.document).mapError (.split request.document)
  Action.print (splitOutput request d)

/-- Lists the files of a folder in the order of their paths, one a line. -/
def runList (request : ListRequest) : Action CommandError Unit := do
  let found ← Action.look fun t =>
    (Files.listFiles t request.folder request.patterns request.ignored).mapError (.list request.folder)
  let files := found.mergeSort Path.le
  inform ("Found " ++ toString files.length ++ " files in " ++ request.folder.asString)
  files.forM fun path => Action.print (path ++ ['\n'])

/-- Carries out a command. -/
def runCommand (settings : Settings) : Command → Action CommandError Unit
  | .compile request => runCompile settings request
  | .split request => runSplit request
  | .list request => runList request

/-- The documents that a command may look at or write.  A listing looks at a whole folder instead. -/
def pathsOf (settings : Settings) : Command → List Path
  | .compile request =>
    let d := (settingsFor settings request).toOption.getD settings |>.delimiters
    let template := match templateOf request d with
      | .path p => [p]
      | .inline _ => []
    let data := match request.data.map (DataSource.detect · d) with
      | some (.path p) => [p]
      | _ => []
    let layers := [request.defaults, settings.defaultData, request.master, settings.masterData,
      request.output]
    template ++ data ++ layers.filterMap id
  | .split request => [request.document]
  | .list _ => []

/-- The version that the program calls itself. -/
def version : String := "0.1.0"

/-- The level at which an invocation logs unless the environment filters. -/
def logLevel (settings : Settings) (invocation : Invocation) : Text :=
  if invocation.verbose then "debug".toList else settings.logLevel

/-- How the program was started. -/
def startNotes (settings : Settings) (invocation : Invocation) : List String :=
  ["Logging initialized with level: " ++ (logLevel settings invocation).asString,
    "Starting stencil v" ++ version,
    "Configuration loaded from: " ++ (Text.quotedOption invocation.config).asString]

/-- Says how the program was started, and carries out the command. -/
def runInvocation (settings : Settings) (invocation : Invocation) : Action CommandError Unit := do
  (startNotes settings invocation).forM fun message =>
    Action.look fun _ => Traced.say .debug .application message
  runCommand settings invocation.command

/-- Loads the settings that an invocation names, or those that are found. -/
def loadSettings (env : Settings.Environment) (config : Option Path) : Action CommandError Settings :=
  Action.look fun t => Traced.ofExcept ((Settings.load t env config).mapError .settings)

end Infill.Program

namespace Infill

/-- What is left of a run: its exit code, what it printed, what it said about the log filter, what it
logged, its report of an error, and the files. -/
structure Outcome where
  code : Nat
  output : Text
  complaints : List String
  log : List LogEvent
  report : Text
  files : FileTree
  deriving DecidableEq, Repr

namespace Program

/-- What the program says of itself. -/
def usage : Text :=
  ("Fill text templates with values from layered JSON data\n\n" ++
    "Usage: stencil [OPTIONS] <COMMAND>\n\n" ++
    "Commands:\n" ++
    "  compile <TEMPLATE>  Fill a template\n" ++
    "  split <DOCUMENT>    Take the header off a document\n" ++
    "  list <FOLDER>       List the files of a folder\n" ++
    "  help                Print this message\n").toList

/-- What is said of a command line that cannot be read. -/
def usageReport (fault : UsageFault) : Text :=
  let reason := match fault with
    | .nothingGiven | .noCommand | .helpAsked | .versionAsked => "a command is required"
    | .unknownCommand => "unrecognized command"
    | .unknownArgument => "unexpected argument"
    | .conflict => "an argument cannot be used here"
    | .missingArgument => "a required argument was not provided"
    | .badValue => "a value is required"
    | .tooManyValues => "unexpected value"
  ("error: " ++ reason ++ "\n").toList

/-- The outcome of a command line that asks for nothing that can be done. -/
def usageOutcome (t : FileTree) (fault : UsageFault) : Outcome :=
  match fault with
  | .helpAsked => ⟨0, usage, [], [], [], t⟩
  | .versionAsked => ⟨0, ("stencil " ++ version ++ "\n").toList, [], [], [], t⟩
  | .nothingGiven => ⟨2, [], [], [], usage, t⟩
  | fault => ⟨2, [], [], [], usageReport fault, t⟩

/-- Runs the program on the words of a command line.  Whether the command fails or not, what it printed and
the files are as its last step left them. -/
def run (t : FileTree) (env : Settings.Environment) (words : List Text) : Outcome :=
  match CommandLine.read words with
  | .error fault => usageOutcome t fault
  | .ok invocation =>
    let (loaded, effect) := loadSettings env invocation.config ⟨[], t⟩
    match loaded.result with
    | .error e => ⟨1, effect.output, [], [], e.report, effect.files⟩
    | .ok settings =>
      let (traced, effect) := runInvocation settings invocation effect
      let filter := LogFilter.choose (Settings.variableOf env "RUST_LOG")
        (logLevel settings invocation)
      let log := traced.log.filter filter.passes
      match traced.result with
      | .ok () => ⟨0, effect.output, filter.complaints, log, [], effect.files⟩
      | .error e => ⟨1, effect.output, filter.complaints, log, e.report, effect.files⟩

end Program
end Infill
