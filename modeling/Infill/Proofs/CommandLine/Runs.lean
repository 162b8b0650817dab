import Infill.CommandLine.Program
import Infill.Proofs.CommandLine.Actions
import Infill.Proofs.Files.Write

/-!
# Runs of the program

All that a run does for an invocation is one action (`perform`), and its outcome is what the last step of that action
has left (`run_of_read`).  Every command looks first, and only its last steps print or write, of which none but the
write can fail.  So a run that fails has printed nothing and left the files as they were, whatever it was to do
(`run_of_code_ne_zero`).

A request to compile comes to a text first (`textOf`), which does not depend on where the text is to go, and hands it
over then (`runCompile_eq`).  So a run that writes its text and a run that prints it have the same text, and the one
that writes it fails if there is no text or the text cannot be written.
-/

set_option autoImplicit false

namespace Infill.Program

open Infill.Action (AllOrNothing)

variable {t : FileTree} {env : Settings.Environment}

/-! ## Commands that fail -/

/-- Handing over a text ends in a step that cannot fail, or in a write that fails without a trace. -/
theorem allOrNothing_deliver (output : Option Path) (text : Text) : AllOrNothing (deliver output text) := by
  cases output with
  | none => exact (Action.succeeds_print text).allOrNothing
  | some path => exact (Action.allOrNothing_update _).bind_succeeds fun _ => Action.succeeds_say _ _ _

/-- Parsing, reading the layers and compiling only look. -/
theorem allOrNothing_runCompile (settings : Settings) (request : CompileRequest) :
    AllOrNothing (runCompile settings request) :=
  (Action.looks_look _).bind_allOrNothing fun _ => (Action.looks_look _).bind_allOrNothing fun _ =>
    (Action.looks_look _).bind_allOrNothing fun text => allOrNothing_deliver request.output text

/-- Splitting only looks, and printing does not fail. -/
theorem allOrNothing_runSplit (request : SplitRequest) : AllOrNothing (runSplit request) :=
  (Action.looks_look _).bind_allOrNothing fun _ => (Action.succeeds_print _).allOrNothing

/-- Listing only looks, and of the lines that are printed none fails. -/
theorem allOrNothing_runList (request : ListRequest) : AllOrNothing (runList request) :=
  (Action.looks_look _).bind_allOrNothing fun _ =>
    ((Action.succeeds_say _ _ _).bind fun _ => Action.succeeds_forM (fun _ => Action.succeeds_print _) _).allOrNothing

/-- A command that fails has printed nothing and changed nothing. -/
theorem allOrNothing_runCommand (settings : Settings) (command : Command) :
    AllOrNothing (runCommand settings command) := by
  cases command with
  | compile request => exact allOrNothing_runCompile settings request
  | split request => exact allOrNothing_runSplit request
  | list request => exact allOrNothing_runList request

/-! ## What a run leaves -/

/-- All that a run does for an invocation. -/
def perform (env : Settings.Environment) (invocation : Invocation) : Action CommandError Unit :=
  loadSettings env invocation.config >>= fun settings => runInvocation settings invocation

/-- An invocation whose settings cannot be loaded or whose command fails has done nothing. -/
theorem allOrNothing_perform (env : Settings.Environment) (invocation : Invocation) :
    AllOrNothing (perform env invocation) :=
  (Action.looks_look _).bind_allOrNothing fun settings =>
    (Action.looks_forM (fun _ => Action.looks_look _) _).bind_allOrNothing fun _ =>
      allOrNothing_runCommand settings invocation.command

/-- The events that tell how the program was started. -/
def startLog (settings : Settings) (invocation : Invocation) : List LogEvent :=
  (startNotes settings invocation).map fun message => ⟨.debug, .application, message⟩

/-- What is said of the start comes before what the command says, and makes no other difference. -/
theorem runInvocation_eq (settings : Settings) (invocation : Invocation) (before : Effect) :
    runInvocation settings invocation before =
      (⟨(runCommand settings invocation.command before).1.result,
        startLog settings invocation ++ (runCommand settings invocation.command before).1.log⟩,
        (runCommand settings invocation.command before).2) := rfl

/-- An invocation comes to what its command comes to, once its settings are loaded. -/
theorem perform_of_load {invocation : Invocation} {settings : Settings}
    (hload : Settings.load t env invocation.config = .ok settings) (output : Text) :
    (perform env invocation ⟨output, t⟩).1.result =
        (runCommand settings invocation.command ⟨output, t⟩).1.result ∧
      (perform env invocation ⟨output, t⟩).2 = (runCommand settings invocation.command ⟨output, t⟩).2 := by
  have hloaded : (loadSettings env invocation.config ⟨output, t⟩).1.result = .ok settings :=
    Result.mapError_eq_ok.2 hload
  unfold perform
  rw [Action.result_bind, Action.effect_bind, hloaded]
  change (runInvocation settings invocation ⟨output, t⟩).1.result = _ ∧
    (runInvocation settings invocation ⟨output, t⟩).2 = _
  rw [runInvocation_eq]
  exact ⟨rfl, rfl⟩

/-- An invocation whose settings cannot be loaded comes to nothing else. -/
theorem perform_of_load_eq_error {invocation : Invocation} {e : SettingsError}
    (hload : Settings.load t env invocation.config = .error e) (output : Text) :
    (perform env invocation ⟨output, t⟩).1.result = .error (.settings e) := by
  have hloaded : (loadSettings env invocation.config ⟨output, t⟩).1.result = .error (.settings e) :=
    Result.mapError_eq_error.2 ⟨e, hload, rfl⟩
  unfold perform
  rw [Action.result_bind, hloaded]
  rfl

section Run

variable {words : List Text} {invocation : Invocation} (hread : CommandLine.read words = .ok invocation)

include hread

/-- A run ends with what was printed and with the files as they were left, and with a code that tells whether there
was an error. -/
theorem run_of_read (t : FileTree) (env : Settings.Environment) :
    (run t env words).output = (perform env invocation ⟨[], t⟩).2.output ∧
      (run t env words).files = (perform env invocation ⟨[], t⟩).2.files ∧
      (run t env words).code =
        match (perform env invocation ⟨[], t⟩).1.result with
        | .ok () => 0
        | .error _ => 1 := by
  unfold run perform
  rw [hread, Action.effect_bind, Action.result_bind]
  dsimp only
  generalize loadSettings env invocation.config ⟨[], t⟩ = start
  obtain ⟨⟨loaded, log⟩, effect⟩ := start
  cases loaded with
  | error e => exact ⟨rfl, rfl, rfl⟩
  | ok settings =>
    dsimp only [Except.bind]
    generalize runInvocation settings invocation effect = performed
    obtain ⟨⟨result, log⟩, last⟩ := performed
    cases result with
    | error e => exact ⟨rfl, rfl, rfl⟩
    | ok done => exact ⟨rfl, rfl, rfl⟩

/-- A run without an error leaves what the invocation has done. -/
theorem run_of_perform_eq_ok (h : (perform env invocation ⟨[], t⟩).1.result = .ok ()) :
    (run t env words).code = 0 ∧ (run t env words).output = (perform env invocation ⟨[], t⟩).2.output ∧
      (run t env words).files = (perform env invocation ⟨[], t⟩).2.files := by
  obtain ⟨houtput, hfiles, hcode⟩ := run_of_read hread t env
  rw [h] at hcode
  exact ⟨hcode, houtput, hfiles⟩

/-- A run that comes to an error has printed nothing and leaves everything as it was. -/
theorem run_of_perform_eq_error {e : CommandError} (h : (perform env invocation ⟨[], t⟩).1.result = .error e) :
    (run t env words).code = 1 ∧ (run t env words).output = [] ∧ (run t env words).files = t := by
  obtain ⟨houtput, hfiles, hcode⟩ := run_of_read hread t env
  rw [h] at hcode
  rw [allOrNothing_perform env invocation _ e h] at houtput hfiles
  exact ⟨hcode, houtput, hfiles⟩

end Run

/-- A run that fails has printed nothing and leaves the files as they were, whatever the words of the command line
were. -/
theorem run_of_code_ne_zero {words : List Text} (h : (run t env words).code ≠ 0) :
    (run t env words).output = [] ∧ (run t env words).files = t := by
  cases hread : CommandLine.read words with
  | error fault =>
    have hrun : run t env words = usageOutcome t fault := by
      unfold run
      rw [hread]
    rw [hrun] at h ⊢
    cases fault with
    | helpAsked => exact absurd rfl h
    | versionAsked => exact absurd rfl h
    | _ => exact ⟨rfl, rfl⟩
  | ok invocation =>
    cases hresult : (perform env invocation ⟨[], t⟩).1.result with
    | ok _ => exact absurd (run_of_perform_eq_ok hread hresult).1 h
    | error e => exact (run_of_perform_eq_error hread hresult).2

/-! ## Compiling -/

/-- The text that a request to compile comes to. -/
def textOf (t : FileTree) (env : Settings.Environment) (config : Option Path) (request : CompileRequest) :
    Except CommandError Text := do
  let settings ← (Settings.load t env config).mapError .settings
  (compiledText t settings request).result

/-- Where the text goes makes no difference to it. -/
theorem textOf_output (t : FileTree) (env : Settings.Environment) (config : Option Path)
    (request : CompileRequest) (output : Option Path) :
    textOf t env config { request with output := output } = textOf t env config request := rfl

/-- The steps of a command that compiles are one look at the files, which comes to the text, and the handing over of
that. -/
theorem runCompile_eq (settings : Settings) (request : CompileRequest) : runCompile settings request =
    (Action.look fun t => compiledText t settings request) >>= deliver request.output := by
  unfold runCompile compiledText
  simp only [Action.look_bind, Action.bind_bind]

/-- A text that can be written is written, and nothing is printed. -/
theorem deliver_of_writeFile_eq_ok {out : Path} {text : Text} {u : FileTree}
    (hwrite : t.writeFile out (Utf8.encode text) = .ok u) :
    (deliver (some out) text ⟨[], t⟩).1.result = .ok () ∧ (deliver (some out) text ⟨[], t⟩).2 = ⟨[], u⟩ := by
  have hresult : ((Files.write t out text).mapError (CommandError.output out)).result = .ok u := by
    rw [Traced.result_mapError, Files.result_write, hwrite]
    rfl
  obtain ⟨hok, hdone⟩ := Action.update_of_ok ⟨[], t⟩
    (f := fun t => (Files.write t out text).mapError (CommandError.output out)) hresult
  unfold deliver
  rw [Action.result_bind, Action.effect_bind, hok, hdone]
  exact ⟨rfl, rfl⟩

/-- A text that cannot be written is an error. -/
theorem result_deliver_of_writeFile_eq_error {out : Path} {text : Text} {fault : SystemFault}
    (hwrite : t.writeFile out (Utf8.encode text) = .error fault) :
    (deliver (some out) text ⟨[], t⟩).1.result = .error (.output out (.access out (.system fault))) := by
  have hresult : ((Files.write t out text).mapError (CommandError.output out)).result =
      .error (.output out (.access out (.system fault))) := by
    rw [Traced.result_mapError, Files.result_write, hwrite]
    rfl
  unfold deliver
  rw [Action.result_bind, (Action.update_of_error ⟨[], t⟩
    (f := fun t => (Files.write t out text).mapError (CommandError.output out)) hresult).1]
  rfl

section Compile

variable {words : List Text} {invocation : Invocation} {request : CompileRequest}
  (hread : CommandLine.read words = .ok invocation) (hcommand : invocation.command = .compile request)

include hcommand

/-- A request to compile that comes to no text comes to an error. -/
theorem result_perform_of_textOf_eq_error {e : CommandError}
    (htext : textOf t env invocation.config request = .error e) :
    (perform env invocation ⟨[], t⟩).1.result = .error e := by
  unfold textOf at htext
  cases hload : Settings.load t env invocation.config with
  | error fault =>
    rw [hload] at htext
    rw [perform_of_load_eq_error hload, Except.error.inj htext]
  | ok settings =>
    rw [hload] at htext
    have hresult : (compiledText t settings request).result = .error e := htext
    rw [(perform_of_load hload []).1, hcommand, runCommand, runCompile_eq, Action.result_bind]
    exact congrArg (Except.bind · _) hresult

/-- A request to compile that comes to a text hands it over. -/
theorem perform_of_textOf_eq_ok {text : Text} (htext : textOf t env invocation.config request = .ok text) :
    (perform env invocation ⟨[], t⟩).1.result = (deliver request.output text ⟨[], t⟩).1.result ∧
      (perform env invocation ⟨[], t⟩).2 = (deliver request.output text ⟨[], t⟩).2 := by
  obtain ⟨settings, hload, hresult⟩ := Result.bind_eq_ok.1 htext
  obtain ⟨hperformed, heffect⟩ := perform_of_load (Result.mapError_eq_ok.1 hload) []
  have hlook : (Action.look (fun t => compiledText t settings request) ⟨[], t⟩).1.result = .ok text := hresult
  rw [hperformed, heffect, hcommand, runCommand, runCompile_eq, Action.result_bind, Action.effect_bind, hlook]
  exact ⟨rfl, rfl⟩

include hread

/-- A command that comes to no text fails. -/
theorem run_of_textOf_eq_error {e : CommandError}
    (htext : textOf t env invocation.config request = .error e) :
    (run t env words).code = 1 ∧ (run t env words).output = [] ∧ (run t env words).files = t :=
  run_of_perform_eq_error hread (result_perform_of_textOf_eq_error hcommand htext)

variable {text : Text} (htext : textOf t env invocation.config request = .ok text)

include htext

/-- A command that is not to write its text prints it. -/
theorem run_of_output_eq_none (hout : request.output = none) :
    (run t env words).code = 0 ∧ (run t env words).output = text ∧ (run t env words).files = t := by
  obtain ⟨hresult, heffect⟩ := perform_of_textOf_eq_ok hcommand htext
  rw [hout] at hresult heffect
  have hrun := run_of_perform_eq_ok hread hresult
  rw [heffect] at hrun
  exact hrun

/-- A command that is to write its text has written it if it can be written. -/
theorem run_of_writeFile_eq_ok {out : Path} (hout : request.output = some out) {u : FileTree}
    (hwrite : t.writeFile out (Utf8.encode text) = .ok u) :
    (run t env words).code = 0 ∧ (run t env words).output = [] ∧ (run t env words).files = u := by
  obtain ⟨hresult, heffect⟩ := perform_of_textOf_eq_ok hcommand htext
  obtain ⟨hdelivered, hdone⟩ := deliver_of_writeFile_eq_ok hwrite
  rw [hout] at hresult heffect
  have hrun := run_of_perform_eq_ok hread (hresult.trans hdelivered)
  rw [heffect, hdone] at hrun
  exact hrun

/-- A command that is to write its text fails if it cannot be written. -/
theorem run_of_writeFile_eq_error {out : Path} (hout : request.output = some out) {fault : SystemFault}
    (hwrite : t.writeFile out (Utf8.encode text) = .error fault) :
    (run t env words).code = 1 ∧ (run t env words).output = [] ∧ (run t env words).files = t := by
  obtain ⟨hresult, -⟩ := perform_of_textOf_eq_ok hcommand htext
  rw [hout] at hresult
  exact run_of_perform_eq_error hread (hresult.trans (result_deliver_of_writeFile_eq_error hwrite))

end Compile

/-- A command that compiles does all of it or nothing.  If it fails it prints nothing and leaves the files as
they were.  A command that is not to write its text leaves them so as well, and prints the text if there is
one.  A command that writes its text to `out` succeeds if the same command without `out` does and the text
that this one prints can be written there; then just this text has been written, and nothing is printed. -/
theorem compile_all_or_nothing {words : List Text} {invocation : Invocation} {request : CompileRequest}
    (hread : CommandLine.read words = .ok invocation) (hcommand : invocation.command = .compile request)
    (t : FileTree) (env : Settings.Environment) :
    let outcome := run t env words
    (outcome.code ≠ 0 → outcome.files = t ∧ outcome.output = []) ∧
    (request.output = none → outcome.files = t ∧
      ∀ text, textOf t env invocation.config request = .ok text →
        outcome.code = 0 ∧ outcome.output = text) ∧
    ∀ out shown, request.output = some out →
      CommandLine.read shown =
        .ok { invocation with command := .compile { request with output := none } } →
      let printed := run t env shown
      (outcome.code = 0 ↔
        printed.code = 0 ∧ ∃ u, t.writeFile out (Utf8.encode printed.output) = .ok u) ∧
      (outcome.code = 0 → outcome.output = [] ∧
        ∃ location, t.Written out (Utf8.encode printed.output) location outcome.files) := by
  intro outcome
  refine ⟨?_, ?_, ?_⟩
  · intro hcode
    obtain ⟨houtput, hfiles⟩ := run_of_code_ne_zero hcode
    exact ⟨hfiles, houtput⟩
  · intro hnone
    cases htext : textOf t env invocation.config request with
    | error e =>
      obtain ⟨-, -, hfiles⟩ := run_of_textOf_eq_error hread hcommand htext
      exact ⟨hfiles, fun text h => by cases h⟩
    | ok text =>
      obtain ⟨hcode, houtput, hfiles⟩ := run_of_output_eq_none hread hcommand htext hnone
      refine ⟨hfiles, fun text' h => ?_⟩
      obtain rfl : text = text' := Except.ok.inj h
      exact ⟨hcode, houtput⟩
  · intro out shown hout hshown printed
    cases htext : textOf t env invocation.config request with
    | error e =>
      have htext' := (textOf_output t env invocation.config request none).trans htext
      have hcode : outcome.code = 1 := (run_of_textOf_eq_error hread hcommand htext).1
      have hcode' : printed.code = 1 := (run_of_textOf_eq_error hshown rfl htext').1
      simp [hcode, hcode']
    | ok text =>
      have htext' := (textOf_output t env invocation.config request none).trans htext
      obtain ⟨hcode', houtput', -⟩ : printed.code = 0 ∧ printed.output = text ∧ printed.files = t :=
        run_of_output_eq_none hshown rfl htext' rfl
      rw [hcode', houtput']
      cases hwrite : t.writeFile out (Utf8.encode text) with
      | error fault =>
        have hcode : outcome.code = 1 :=
          (run_of_writeFile_eq_error hread hcommand htext hout hwrite).1
        simp [hcode]
      | ok u =>
        obtain ⟨hcode, houtput, hfiles⟩ : outcome.code = 0 ∧ outcome.output = [] ∧ outcome.files = u :=
          run_of_writeFile_eq_ok hread hcommand htext hout hwrite
        obtain ⟨location, hwritten⟩ := FileTree.exists_written_of_writeFile hwrite
        rw [hcode, houtput, hfiles]
        exact ⟨⟨fun _ => ⟨rfl, u, rfl⟩, fun _ => rfl⟩, fun _ => ⟨rfl, location, hwritten⟩⟩

/-- The text is written through a link over the template that it comes from. -/
theorem compile_all_or_nothing_over_template :
    let t : FileTree := ⟨[([['t']], .file [0x7b, 0x7b, 0x78, 0x7d, 0x7d]), ([['l']], .link ['t']),
      ([['d', '.', 'j', 's', 'o', 'n']], .file [0x7b, 0x22, 0x78, 0x22, 0x3a, 0x22, 0x79, 0x22, 0x7d])], []⟩
    let shown : List Text := ["compile".toList, ['t'], ['-', 'd'], ['d', '.', 'j', 's', 'o', 'n']]
    let outcome := run t [] (shown ++ [['-', 'o'], ['l']])
    outcome.code = 0 ∧ outcome.output = [] ∧ t.Written ['l'] [0x79] [['t']] outcome.files := by
  intro t shown outcome
  let request : CompileRequest := {
    template := ['t'], inline := false, file := false
    data := some ['d', '.', 'j', 's', 'o', 'n'], defaults := none, master := none
    assignments := [], opening := none, closing := none, output := some ['l'] }
  have hread : CommandLine.read (shown ++ [['-', 'o'], ['l']]) =
      .ok ⟨.compile request, false, none, false⟩ := rfl
  have hshown : CommandLine.read shown =
      .ok ⟨.compile { request with output := none }, false, none, false⟩ := rfl
  obtain ⟨-, -, hwrites⟩ := compile_all_or_nothing hread rfl t []
  obtain ⟨-, hsuccess⟩ := hwrites ['l'] shown rfl hshown
  have hcode : outcome.code = 0 := by decide +kernel
  have hprinted : (run t [] shown).output = ['y'] := by decide +kernel
  obtain ⟨houtput, location, hwritten⟩ := hsuccess hcode
  have hlocation : location = [['t']] := by
    rcases hwritten.before with ⟨hfind, -⟩ | ⟨hfind, -⟩
    · exact (Except.ok.inj hfind).symm
    · cases hfind
  rw [hprinted, hlocation] at hwritten
  exact ⟨hcode, houtput, hwritten⟩

end Infill.Program
