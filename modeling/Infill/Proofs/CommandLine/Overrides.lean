import Infill.CommandLine.Program
import Infill.Proofs.CommandLine.Variables
import Infill.Proofs.Template.Layers

/-!
# Variables win

A command compiles with three layers of data, and its variables lie over the uppermost one.  Whatever the
layers hold along a key, and however they come to hold it, a variable whose key no other one extends is
what the key resolves to (`resolve_context`).  The main theorem puts this together with how the variables
come about, and follows the context to the text that the command compiles.
-/

set_option autoImplicit false

namespace Infill.Variables

open Template
open Result (Gives)

/-! ## Variables of settings -/

/-- The variables of a document are kept in the order of their keys. -/
theorem gives_sorted_ofDocument (d : Yaml.Document) :
    Gives (fun settings : Settings => Keyed.Sorted settings.overrides) (Settings.ofDocument d) := by
  have hvariables : ∀ node, Gives Keyed.Sorted (Settings.variablesOf d node) := by
    intro node
    unfold Settings.variablesOf
    exact .bind fun fields _ => .bind fun entries _ => .ok (Keyed.sorted_ofList entries)
  unfold Settings.ofDocument
  refine .bind fun fields _ => .bind fun _ _ => .bind fun _ _ => .bind fun _ _ =>
    .bind fun node _ => ?_
  cases node with
  | none =>
    refine .bind fun overrides hoverrides => ?_
    obtain rfl := Except.ok.inj hoverrides
    exact .bind fun _ _ => .ok List.Pairwise.nil
  | some node =>
    refine .bind fun overrides hoverrides => ?_
    exact .bind fun _ _ => .ok (hvariables node overrides hoverrides)

/-- The variables of a file are kept in the order of their keys. -/
theorem gives_sorted_ofFile (t : FileTree) (path : Path) :
    Gives (fun settings : Settings => Keyed.Sorted settings.overrides) (Settings.ofFile t path) := by
  unfold Settings.ofFile
  refine .bind fun content _ => ?_
  cases Utf8.decode? content with
  | none => exact .error _
  | some text =>
    refine Gives.bind fun document _ => ?_
    cases document with
    | none => exact .ok List.Pairwise.nil
    | some d =>
      intro settings h
      exact gives_sorted_ofDocument d settings (Result.mapError_eq_ok.1 h)

/-- However settings come to hold, their variables are in order. -/
theorem gives_sorted_load (t : FileTree) (env : Settings.Environment) (named : Option Path) :
    Gives (fun settings : Settings => Keyed.Sorted settings.overrides)
      (Settings.load t env named) := by
  have hdefault : Gives (fun settings : Settings => Keyed.Sorted settings.overrides)
      (.ok Settings.default : Except SettingsError Settings) := .ok List.Pairwise.nil
  unfold Settings.load
  cases named.orElse fun _ => (Settings.candidates env).find? t.exists? with
  | none => exact .bind fun settings h => .ok (hdefault settings h)
  | some path =>
    by_cases hthere : t.exists? path = true
    · simp only [hthere, if_true]
      exact .bind fun settings h => .ok (gives_sorted_ofFile t path settings h)
    · simp only [hthere]
      exact .bind fun settings h => .ok (hdefault settings h)

/-! ## Variables over layers -/

/-- Over any layers a key that no other key extends resolves to its value. -/
theorem resolve_context {v : Variables} (hsorted : Keyed.Sorted v) (hplain : v.Plain)
    {key value : Text} (hget : Keyed.get? key v = some value)
    (hmaximal : ∀ entry ∈ v, ¬ Text.Extends '.' key entry.1) (defaults data : Json) {master : Json}
    (hmaster : master.Ordered) :
    Data.resolve (Data.merge [defaults, data, Data.merge [master, v.toJson]]) key =
      some (.string value) := by
  have hentry : (key, value) ∈ v := Keyed.mem_of_get?_eq_some hget
  have hne : key ≠ [] := by
    rintro rfl
    exact hplain _ hentry [] (by simp [Text.splitOn]) rfl
  have hvalue : ¬ Json.IsObject (.string value) := Json.not_isObject_string value
  have hnothing : Data.LeftOpen [] (Data.keys key) := by simp [Data.LeftOpen]
  have hvariables : ∀ layer ∈ [v.toJson], layer.Ordered := by simp [ordered_toJson v]
  have hupper : ∀ layer ∈ [Data.merge [master, v.toJson]], layer.Ordered := by
    have hlayers : ∀ layer ∈ [master, v.toJson], layer.Ordered := by simp [hmaster, ordered_toJson v]
    simp [Data.ordered_merge hlayers]
  have hleads : Data.Leads (some (Data.merge [master, v.toJson])) (Data.keys key) (.string value) :=
    Data.leads_merge [master] hvariables ⟨_, rfl⟩ hvalue
      (leads_toJson hsorted hplain hget hmaximal) hnothing
  exact Data.resolve_merge_of_leads [defaults, data] hne hupper ⟨_, rfl⟩ hvalue hleads hnothing

/-- A layer that is read is ordered. -/
theorem ordered_of_readLayer? {t : FileTree} {path : Option Path} {layer : Option Json}
    (h : (Program.readLayer? t path).result = .ok layer) : ∀ value ∈ layer, value.Ordered := by
  cases path with
  | none =>
    obtain rfl : none = layer := by simpa [Program.readLayer?] using h
    simp
  | some path =>
    unfold Program.readLayer? Program.readLayer at h
    rw [Traced.result_bind, Traced.result_mapError] at h
    obtain ⟨value, hvalue, h⟩ := Result.bind_eq_ok.1 h
    obtain rfl : some value = layer := by simpa using h
    have hordered : value.Ordered := Json.ordered_of_readJson (Result.mapError_eq_ok.1 hvalue)
    simpa using hordered

/-- The options of a command hold the layers that it reads, with its variables over the master data. -/
theorem exists_layers_of_optionsFor {t : FileTree} {settings : Settings} {request : CompileRequest}
    {options : CompileOptions} (h : (Program.optionsFor t settings request).result = .ok options) :
    ∃ defaults master : Option Json,
      (Program.readLayer? t (request.defaults.orElse fun _ => settings.defaultData)).result = .ok defaults ∧
      (Program.readLayer? t (request.master.orElse fun _ => settings.masterData)).result = .ok master ∧
      options.defaults = defaults ∧
      options.data = request.data.map (DataSource.detect · settings.delimiters) ∧
      options.master = some (Data.merge [master.getD .empty, settings.overrides.toJson]) := by
  unfold Program.optionsFor at h
  simp only [Traced.result_bind, Traced.result_pure] at h
  obtain ⟨defaults, hdefaults, h⟩ := Result.bind_eq_ok.1 h
  obtain ⟨master, hmaster, h⟩ := Result.bind_eq_ok.1 h
  obtain rfl := Except.ok.inj h
  exact ⟨defaults, master, hdefaults, hmaster, rfl, rfl, rfl⟩

/-- A layer that was not asked for is an ordered one without members. -/
theorem ordered_getD_of_readLayer? {t : FileTree} {path : Option Path} {layer : Option Json}
    (h : (Program.readLayer? t path).result = .ok layer) : (layer.getD .empty).Ordered := by
  cases layer with
  | none => exact Json.ordered_empty
  | some value => exact ordered_of_readLayer? h value rfl

/-- The options of a command hold its variables over the master data. -/
theorem exists_master_of_optionsFor {t : FileTree} {settings : Settings} {request : CompileRequest}
    {options : CompileOptions} (h : (Program.optionsFor t settings request).result = .ok options) :
    ∃ master : Json, master.Ordered ∧
      options.master = some (Data.merge [master, settings.overrides.toJson]) := by
  obtain ⟨-, master, -, hmaster, -, -, hoptions⟩ := exists_layers_of_optionsFor h
  exact ⟨master.getD .empty, ordered_getD_of_readLayer? hmaster, hoptions⟩

/-- The settings for a request hold the variables of its assignments over those that were set. -/
theorem overrides_settingsFor {settings active : Settings} {request : CompileRequest}
    {assigned : Variables} (hparse : parse request.assignments = .ok assigned)
    (h : Program.settingsFor settings request = .ok active) :
    active.overrides = settings.overrides.update assigned := by
  unfold Program.settingsFor at h
  rw [hparse] at h
  obtain rfl := Except.ok.inj h
  rfl

/-- A placeholder stands for the string that its path resolves to. -/
theorem valueOf_of_resolve_eq_string {context : Json} {p : Placeholder} {value : Text}
    (h : Data.resolve context p.path = some (.string value)) : valueOf context p = value := by
  unfold valueOf
  rw [h]
  cases value <;> simp [Data.displayFound, Data.display, Json.isFalsy]

/-- Variables win from end to end.  A variable has the value of the last assignment to its key, or else
the value that the settings give it.  If no key has an empty segment, a key that no other one extends
resolves to its value, whatever the defaults, the data and the master data are; and a command fills its
template from a context in which it does, so that every placeholder for the key becomes the value. -/
theorem variables_win {settings : Settings} {request : CompileRequest} {assigned : Variables}
    (hsettings : Keyed.Sorted settings.overrides)
    (hparse : parse request.assignments = .ok assigned) :
    let v := settings.overrides.update assigned
    (∀ key value, Keyed.get? key v = some value ↔
      SetTo request.assignments key value ∨
        (∀ other, ¬ SetTo request.assignments key other) ∧
          Keyed.get? key settings.overrides = some value) ∧
    (v.Plain → ∀ key value, Keyed.get? key v = some value →
      (∀ entry ∈ v, ¬ Text.Extends '.' key entry.1) →
      (∀ defaults data master : Json, master.Ordered →
        Data.resolve (Data.merge [defaults, data, Data.merge [master, v.toJson]]) key =
          some (.string value)) ∧
      ∀ (t : FileTree) (active : Settings) (options : CompileOptions) (data : Json),
        Program.settingsFor settings request = .ok active →
        (Program.optionsFor t active request).result = .ok options →
        (loadData (Files.documents t) options.data).result = .ok data →
        Data.resolve (options.context data) key = some (.string value) ∧
        (∀ p : Placeholder, p.path = key → valueOf (options.context data) p = value) ∧
        ∀ template, options.template.isEmpty = false →
          loadTemplate (Files.documents t) options.template = .ok template →
          (Program.compiledText t settings request).result =
            (render template (options.context data) options.delimiters).result.mapError
              fun e => .compile (.scan e)) := by
  intro v
  refine ⟨fun key value => get?_update_eq_some_iff hparse, ?_⟩
  intro hplain key value hget hmaximal
  have hsorted : Keyed.Sorted v := sorted_update hsettings
  have hresolve : ∀ defaults data master : Json, master.Ordered →
      Data.resolve (Data.merge [defaults, data, Data.merge [master, v.toJson]]) key =
        some (.string value) := by
    intro defaults data master hmaster
    exact resolve_context hsorted hplain hget hmaximal defaults data hmaster
  refine ⟨hresolve, ?_⟩
  intro t active options data hactive hoptions hdata
  have hcontext : Data.resolve (options.context data) key = some (.string value) := by
    obtain ⟨master, hmaster, hover⟩ := exists_master_of_optionsFor hoptions
    rw [overrides_settingsFor hparse hactive] at hover
    unfold CompileOptions.context
    rw [hover]
    exact hresolve _ data master hmaster
  refine ⟨hcontext, ?_, ?_⟩
  · rintro p rfl
    exact valueOf_of_resolve_eq_string hcontext
  · intro template htemplate hload
    unfold Program.compiledText
    simp only [Traced.result_bind, Traced.result_ofExcept, Traced.result_mapError, hactive, hoptions,
      Result.mapError_ok, Except.bind, result_compile htemplate hload hdata]
    cases (render template (options.context data) options.delimiters).result <;> rfl

/-- A variable of the settings is assigned twice, its value holds an equals sign, another variable is set
to its first segment, and the master data hold an empty string there. -/
theorem variables_win_over_falsy :
    let a : Text := ['a']
    let ab : Text := ['a', '.', 'b']
    let value : Text := ['1', '=', '2']
    let settings : Settings := { Settings.default with
      overrides := [(a, ['x']), (ab, ['y'])], masterData := some ['m'] }
    let request : CompileRequest := {
      template := ['\x7b', '\x7b'] ++ ab ++ ['\x7d', '\x7d'], inline := true, file := false
      data := none, defaults := none, master := none
      assignments := [ab ++ ['=', 'z'], ab ++ '=' :: value]
      opening := none, closing := none, output := none }
    let t : FileTree := ⟨[([['m']], .file [0x7b, 0x22, 0x61, 0x22, 0x3a, 0x22, 0x22, 0x7d])], []⟩
    let master : Json := .object [(a, .string [])]
    SetTo request.assignments ab value ∧
      (∀ defaults data : Json,
        Data.resolve (Data.merge [defaults, data,
          Data.merge [master, toJson [(a, ['x']), (ab, value)]]]) ab = some (.string value)) ∧
      (Program.compiledText t settings request).result = .ok value := by
  intro a ab value settings request t master
  have hsettings : Keyed.Sorted settings.overrides := by
    simp [Keyed.Sorted, settings, a, ab]
  have hparse : parse request.assignments = .ok [(ab, value)] := rfl
  obtain ⟨hget, hwin⟩ := variables_win hsettings hparse
  have hv : update settings.overrides [(ab, value)] = [(a, ['x']), (ab, value)] := rfl
  rw [hv] at hget hwin
  have hplain : Plain [(a, ['x']), (ab, value)] := by
    unfold Plain
    decide
  have hmaximal : ∀ entry ∈ [(a, ['x']), (ab, value)], ¬ Text.Extends '.' ab entry.1 := by
    intro entry hentry hextends
    have hlt : 2 < (Text.splitOn '.' entry.1).length := hextends.length_lt
    have hle : ∀ e ∈ [(a, ['x']), (ab, value)], (Text.splitOn '.' e.1).length ≤ 2 := by decide
    exact absurd hlt (Nat.not_lt.2 (hle entry hentry))
  obtain ⟨hresolve, hcompile⟩ := hwin hplain ab value rfl hmaximal
  have hmaster : master.Ordered := Json.ordered_singleton a (.string [])
  refine ⟨?_, fun defaults data => hresolve defaults data master hmaster, ?_⟩
  · rcases (hget ab value).1 rfl with hset | ⟨hnot, -⟩
    · exact hset
    · exact absurd ⟨[ab ++ ['=', 'z']], [], rfl, by decide, by simp⟩ (hnot value)
  · have hactive : Program.settingsFor settings request =
        .ok { settings with overrides := [(a, ['x']), (ab, value)] } := rfl
    have hjson : toJson [(a, ['x']), (ab, value)] = .object [(a, .object [(['b'], .string value)])] := by
      rw [toJson_of_sorted (by simp [Keyed.Sorted, a, ab])]
      rfl
    have hoptions : (Program.optionsFor t { settings with overrides := [(a, ['x']), (ab, value)] } request).result =
        .ok ⟨.inline request.template, none, none,
          some (Data.merge [master, toJson [(a, ['x']), (ab, value)]]), .default⟩ := by with_unfolding_all rfl
    rw [hjson] at hoptions
    obtain ⟨-, -, htext⟩ := hcompile t _ _ .empty hactive hoptions rfl
    rw [htext request.template rfl rfl]
    with_unfolding_all rfl

end Infill.Variables
