import Infill.Proofs.CommandLine.Runs
import Infill.Proofs.Document.Fences
import Infill.Proofs.Json.Reread

/-!
# The parts of a document in print

A command that splits a document prints its layout, its body or both, and whatever it is to print, it reads the
document in the same way and fails or succeeds alike.  Both parts in one text are read as an object with the body
that is printed alone and the layout that the text of the layout alone is read as (`split_modes_agree`), although
the layout is written one level deeper there and its doubles are not always read as they were.
-/

set_option autoImplicit false

namespace Infill

namespace LayoutDocument

/-! ## The parts -/

/-- The layout of a document is data that was read, or an empty object in its place. -/
theorem ordered_and_ranged_of_split {name text : Text} {d : LayoutDocument}
    (h : (split name text).result = .ok d) : ∀ v ∈ d.layout, v.Ordered ∧ v.Ranged := by
  intro v hv
  by_cases hfront : fence <+: text.trim
  · obtain ⟨header, body, hfenced, -⟩ := existsUnique_fenced hfront
    rw [result_split_of_fenced hfenced] at h
    cases hread : Json.readText header with
    | error reason =>
      rw [hread] at h
      cases h
    | ok data =>
      rw [hread] at h
      obtain rfl : (⟨some (layoutOf data), body⟩ : LayoutDocument) = d := Except.ok.inj h
      obtain rfl : layoutOf data = v := Option.some.inj hv
      unfold layoutOf
      split_ifs
      · exact ⟨Json.ordered_empty, Json.ranged_empty⟩
      · exact ⟨Json.ordered_of_read hread, Json.ranged_of_read hread⟩
  · rw [result_split_of_not_fenced hfront] at h
    obtain rfl : (⟨none, text⟩ : LayoutDocument) = d := Except.ok.inj h
    cases hv

/-- The layout in print: null stands for none. -/
theorem readsAs_layout {d : LayoutDocument} (h : ∀ v ∈ d.layout, v.Ordered ∧ v.Ranged) {depth : Nat}
    (hnested : ∀ v ∈ d.layout, v.NestedWithin depth) :
    Json.ReadsAs depth (d.layout.getD .null) (d.layout.getD .null).reread := by
  cases hlayout : d.layout with
  | none => exact Json.readsAs_null depth
  | some v =>
    obtain ⟨hordered, hranged⟩ := h v hlayout
    exact Json.readsAs_reread (hnested v hlayout) hordered hranged

/-- Both parts in one text are read as an object with both parts. -/
theorem read_toJson {d : LayoutDocument} (h : ∀ v ∈ d.layout, v.Ordered ∧ v.Ranged)
    (hnested : ∀ v ∈ d.layout, v.NestedWithin 126) :
    Json.readText d.toJson.pretty =
      .ok (.object [("body".toList, .string d.body), ("layout".toList, (d.layout.getD .null).reread)]) := by
  have hparts : ∀ part ∈ [("layout".toList, d.layout.getD .null), ("body".toList, Json.string d.body)],
      Json.ReadsAs 126 part.2 part.2.reread := by
    simp only [List.mem_cons, List.not_mem_nil, or_false, forall_eq_or_imp, forall_eq]
    exact ⟨readsAs_layout h hnested, Json.readsAs_string 126 d.body⟩
  -- The layout stands first in print, but members are kept by their keys when they are read.
  exact Json.read_pretty_of_readsAs (Json.readsAs_object Json.reread hparts)

end LayoutDocument

namespace Program

open Template

variable {t : FileTree} {env : Settings.Environment}

/-! ## Runs -/

section Request

variable {request : SplitRequest}

/-- A document that splits is printed behind what was printed before. -/
theorem runSplit_of_ok {d : LayoutDocument} (output : Text)
    (h : (splitDocument (Files.documents t) request.document).result = .ok d) :
    runSplit request ⟨output, t⟩ =
      (⟨.ok (), (splitDocument (Files.documents t) request.document).log ++ []⟩,
        ⟨output ++ splitOutput request d, t⟩) := by
  unfold runSplit
  rw [Action.bind_of_ok _ (congrArg (·.mapError (CommandError.split request.document)) h)]
  rfl

/-- A document that does not split leaves what was done before. -/
theorem runSplit_of_error {e : CompileError} (output : Text)
    (h : (splitDocument (Files.documents t) request.document).result = .error e) :
    runSplit request ⟨output, t⟩ =
      (⟨.error (.split request.document e), (splitDocument (Files.documents t) request.document).log⟩,
        ⟨output, t⟩) := by
  unfold runSplit
  rw [Action.bind_of_error _ (congrArg (·.mapError (CommandError.split request.document)) h)]
  rfl

end Request

/-- Requests to split one document differ in what is printed, and in nothing else. -/
theorem run_split_alike {words others : List Text} {invocation : Invocation} {request other : SplitRequest}
    (hread : CommandLine.read words = .ok { invocation with command := .split request })
    (hother : CommandLine.read others = .ok { invocation with command := .split other })
    (hdocument : other.document = request.document) :
    { run t env others with output := [] } = { run t env words with output := [] } := by
  unfold run loadSettings Action.look
  rw [hread, hother]
  dsimp only [Traced.ofExcept]
  cases Settings.load t env invocation.config with
  | error e => rfl
  | ok settings =>
    dsimp only [Result.mapError_ok]
    rw [runInvocation_eq, runInvocation_eq, runCommand, runCommand]
    cases hsplit : (splitDocument (Files.documents t) request.document).result with
    | error e =>
      rw [runSplit_of_error [] hsplit, runSplit_of_error [] (hdocument ▸ hsplit), hdocument]
      rfl
    | ok d =>
      rw [runSplit_of_ok [] hsplit, runSplit_of_ok [] (hdocument ▸ hsplit), hdocument]
      rfl

/-- The document that a request to split comes to. -/
def documentOf (t : FileTree) (env : Settings.Environment) (config : Option Path) (document : Path) :
    Except CommandError LayoutDocument := do
  let _ ← (Settings.load t env config).mapError .settings
  (splitDocument (Files.documents t) document).result.mapError (.split document)

section Run

variable {words : List Text} {invocation : Invocation} {request : SplitRequest}
  (hread : CommandLine.read words = .ok invocation) (hcommand : invocation.command = .split request)

include hread hcommand

/-- A command that comes to no document fails. -/
theorem run_of_documentOf_eq_error {e : CommandError}
    (h : documentOf t env invocation.config request.document = .error e) :
    (run t env words).code = 1 ∧ (run t env words).output = [] ∧ (run t env words).files = t := by
  have hresult : (perform env invocation ⟨[], t⟩).1.result = .error e := by
    unfold documentOf at h
    cases hload : Settings.load t env invocation.config with
    | error fault =>
      rw [hload] at h
      rw [perform_of_load_eq_error hload, Except.error.inj h]
    | ok settings =>
      rw [hload] at h
      obtain ⟨cause, hsplit, rfl⟩ := Result.mapError_eq_error.1 h
      rw [(perform_of_load hload []).1, hcommand, runCommand, runSplit_of_error [] hsplit]
  exact run_of_perform_eq_error hread hresult

/-- A command that comes to a document prints of it what it is asked for. -/
theorem run_of_documentOf_eq_ok {d : LayoutDocument}
    (h : documentOf t env invocation.config request.document = .ok d) :
    (run t env words).code = 0 ∧ (run t env words).output = splitOutput request d ∧
      (run t env words).files = t := by
  obtain ⟨settings, hload, hsplit⟩ := Result.bind_eq_ok.1 h
  obtain ⟨hresult, heffect⟩ := perform_of_load (Result.mapError_eq_ok.1 hload) []
  rw [hcommand, runCommand, runSplit_of_ok [] (Result.mapError_eq_ok.1 hsplit)] at hresult heffect
  have hrun := run_of_perform_eq_ok hread hresult
  rw [heffect] at hrun
  exact hrun

end Run

/-- The layout of a document that is split is one that can be printed and read. -/
theorem ordered_and_ranged_of_documentOf {config : Option Path} {document : Path} {d : LayoutDocument}
    (h : documentOf t env config document = .ok d) : ∀ v ∈ d.layout, v.Ordered ∧ v.Ranged := by
  obtain ⟨_, -, hdocument⟩ := Result.bind_eq_ok.1 h
  rw [Result.mapError_eq_ok, splitDocument, Traced.result_bind] at hdocument
  obtain ⟨content, -, hsplit⟩ := Result.bind_eq_ok.1 hdocument
  rw [Traced.result_mapError, Result.mapError_eq_ok] at hsplit
  exact LayoutDocument.ordered_and_ranged_of_split hsplit

/-- Three commands that split one document, to print both its parts, its layout and its body, come to the same
but for what they print: they fail or succeed together, for the same reason, and leave the files as they are.  A
command that fails prints nothing.  If they succeed, and the layout is nested so deep that it can be read within
an object, the text of both parts is one that is read as the object with just the body that is printed alone and
the layout that the text of the layout alone is read as, which is null if there is none. -/
theorem split_modes_agree {whole layoutOnly bodyOnly : List Text} {invocation : Invocation} {document : Path}
    (hwhole : CommandLine.read whole = .ok { invocation with command := .split ⟨document, false, false⟩ })
    (hlayout : CommandLine.read layoutOnly = .ok { invocation with command := .split ⟨document, true, false⟩ })
    (hbody : CommandLine.read bodyOnly = .ok { invocation with command := .split ⟨document, false, true⟩ })
    (t : FileTree) (env : Settings.Environment) :
    let both := run t env whole
    let layout := run t env layoutOnly
    let body := run t env bodyOnly
    { layout with output := [] } = { both with output := [] } ∧
    { body with output := [] } = { both with output := [] } ∧ both.files = t ∧
    (∀ e, documentOf t env invocation.config document = .error e →
      both.code = 1 ∧ both.output = [] ∧ layout.output = [] ∧ body.output = []) ∧
    ∀ d, documentOf t env invocation.config document = .ok d →
      both.code = 0 ∧ body.output = d.body ∧
      ((∀ v ∈ d.layout, v.NestedWithin 126) → ∃ text shown v,
        both.output = text ++ ['\n'] ∧ layout.output = shown ++ ['\n'] ∧
        Json.readText shown = .ok v ∧ (d.layout = none → v = .null) ∧
        Json.readText text =
          .ok (.object [("body".toList, .string body.output), ("layout".toList, v)])) := by
  intro both layout body
  refine ⟨run_split_alike hwhole hlayout rfl, run_split_alike hwhole hbody rfl, ?_, ?_, ?_⟩
  · cases hdocument : documentOf t env invocation.config document with
    | error e => exact (run_of_documentOf_eq_error hwhole rfl hdocument).2.2
    | ok d => exact (run_of_documentOf_eq_ok hwhole rfl hdocument).2.2
  · intro e hdocument
    obtain ⟨hcode, houtput, -⟩ := run_of_documentOf_eq_error hwhole rfl hdocument
    exact ⟨hcode, houtput, (run_of_documentOf_eq_error hlayout rfl hdocument).2.1,
      (run_of_documentOf_eq_error hbody rfl hdocument).2.1⟩
  · intro d hdocument
    obtain ⟨hcode, hboth, -⟩ := run_of_documentOf_eq_ok hwhole rfl hdocument
    obtain ⟨-, hshown, -⟩ := run_of_documentOf_eq_ok hlayout rfl hdocument
    obtain ⟨-, hbodyText, -⟩ := run_of_documentOf_eq_ok hbody rfl hdocument
    refine ⟨hcode, hbodyText, fun hnested => ?_⟩
    have hparts := ordered_and_ranged_of_documentOf hdocument
    have hlayoutText := LayoutDocument.readsAs_layout hparts fun v hv => (hnested v hv).succ
    refine ⟨d.toJson.pretty, (d.layout.getD .null).pretty, (d.layout.getD .null).reread, hboth, hshown,
      Json.read_pretty_of_readsAs hlayoutText, ?_, ?_⟩
    · intro hnone
      rw [hnone]
      rfl
    · rw [show body.output = d.body from hbodyText]
      exact LayoutDocument.read_toJson hparts hnested

/-- A layout with a fraction, and a body with escapes and a byte that is no text. -/
theorem split_modes_agree_escaped :
    let t : FileTree := ⟨[([['d']], .file [0x2d, 0x2d, 0x2d, 0x5b, 0x30, 0x2e, 0x31, 0x5d, 0x2d, 0x2d, 0x2d,
      0x22, 0x5c, 0x01, 0xff])], []⟩
    let both := run t [] ["split".toList, ['d']]
    let layout := run t [] ["split".toList, ['d'], "--layout-only".toList]
    let body := run t [] ["split".toList, ['d'], "--body-only".toList]
    both.code = 0 ∧ body.output = ['"', '\\', '\x01', '\uFFFD'] ∧
      ∃ text shown v, both.output = text ++ ['\n'] ∧ layout.output = shown ++ ['\n'] ∧
        Json.readText shown = .ok v ∧
        Json.readText text =
          .ok (.object [("body".toList, .string body.output), ("layout".toList, v)]) := by
  intro t both layout body
  let tenth : Json := .number (.double ⟨false, 7205759403792794, -56⟩)
  let d : LayoutDocument := ⟨some (.array [tenth]), ['"', '\\', '\x01', '\uFFFD']⟩
  let invocation : Invocation := ⟨.split ⟨['d'], false, false⟩, false, none, false⟩
  have hwhole : CommandLine.read ["split".toList, ['d']] =
      .ok { invocation with command := .split ⟨['d'], false, false⟩ } := rfl
  have hlayout : CommandLine.read ["split".toList, ['d'], "--layout-only".toList] =
      .ok { invocation with command := .split ⟨['d'], true, false⟩ } := rfl
  have hbody : CommandLine.read ["split".toList, ['d'], "--body-only".toList] =
      .ok { invocation with command := .split ⟨['d'], false, true⟩ } := rfl
  let header : Text := ['[', '0', '.', '1', ']']
  let text : Text := LayoutDocument.fence ++ header ++ LayoutDocument.fence ++ d.body
  have hsplit : (LayoutDocument.split ['d'] text).result = .ok d := by
    have hheader : Json.readText header = .ok (.array [tenth]) := rfl
    have htrim : text.trim = text := by decide
    have hfenced : LayoutDocument.Fenced text.trim header d.body := htrim.symm ▸ .closed (by decide)
    rw [LayoutDocument.result_split_of_fenced hfenced, hheader]
    rfl
  have hdocument : documentOf t [] invocation.config ['d'] = .ok d := by
    obtain ⟨settings, hload⟩ : ∃ settings, Settings.load t [] none = .ok settings := ⟨_, rfl⟩
    have htext : Utf8.decodeLossy [0x2d, 0x2d, 0x2d, 0x5b, 0x30, 0x2e, 0x31, 0x5d, 0x2d, 0x2d, 0x2d, 0x22, 0x5c,
        0x01, 0xff] = text := by with_unfolding_all rfl
    refine Result.bind_eq_ok.2 ⟨settings, Result.mapError_eq_ok.2 hload, Result.mapError_eq_ok.2 ?_⟩
    rw [splitDocument, Traced.result_bind]
    refine Result.bind_eq_ok.2 ⟨_, rfl, ?_⟩
    rw [Traced.result_mapError, htext, hsplit]
    rfl
  have hnested : ∀ v ∈ d.layout, v.NestedWithin 126 := by
    rintro v hv
    obtain rfl : Json.array [tenth] = v := Option.some.inj hv
    exact .array (by simpa using .number _ _)
  obtain ⟨-, -, -, -, hparts⟩ := split_modes_agree hwhole hlayout hbody t []
  obtain ⟨hcode, hbodyText, hread⟩ := hparts d hdocument
  obtain ⟨text, shown, v, hboth, hshown, hv, -, hobject⟩ := hread hnested
  exact ⟨hcode, hbodyText, text, shown, v, hboth, hshown, hv, hobject⟩

end Program
end Infill
