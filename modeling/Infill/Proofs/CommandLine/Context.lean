import Infill.Proofs.CommandLine.Overrides
import Infill.Proofs.Data.Regrouping

/-!
# The context of a command

A command merges its variables with the master data first, and the result with defaults and data.  It comes to
the same as if all four were merged one after the other, unless the master data separate an object in the
defaults or the data from one in the variables (`layers_regroup`).
-/

set_option autoImplicit false

namespace Infill.Program

open Data (SeparatedAt merge)
open Template

/-- Data that are given as they are and read are ordered. -/
theorem ordered_of_detect_eq_inline {text : Text} {d : Delimiters} {value : Json}
    (h : DataSource.detect text d = .inline value) : value.Ordered := by
  unfold DataSource.detect at h
  split at h
  · rename_i members hread
    obtain rfl := DataSource.inline.inj h
    exact Json.ordered_of_read hread
  · split_ifs at h
    obtain rfl := DataSource.inline.inj h
    exact Json.ordered_empty

variable {t : FileTree} {settings : Settings} {request : CompileRequest} {options : CompileOptions}

/-- The options of a command hold ordered data. -/
theorem ordered_of_optionsFor (h : (optionsFor t settings request).result = .ok options) : options.Ordered := by
  obtain ⟨defaults, master, hdefaults, hmaster, hd, hdata, hm⟩ := Variables.exists_layers_of_optionsFor h
  constructor
  · rw [hd]
    exact Variables.ordered_of_readLayer? hdefaults
  · intro value hvalue
    rw [hdata] at hvalue
    obtain ⟨text, -, hdetect⟩ := Option.map_eq_some_iff.1 hvalue
    exact ordered_of_detect_eq_inline hdetect
  · intro value hvalue
    rw [hm] at hvalue
    obtain rfl := Option.some.inj hvalue
    apply Data.ordered_merge
    simpa using ⟨Variables.ordered_getD_of_readLayer? hmaster, Variables.ordered_toJson _⟩

/-- With the settings and options that hold for a request, its template is filled from their context. -/
theorem result_compiledText {active : Settings} {template : Text} {data : Json}
    (hactive : settingsFor settings request = .ok active)
    (hoptions : (optionsFor t active request).result = .ok options)
    (htemplate : options.template.isEmpty = false)
    (hload : loadTemplate (Files.documents t) options.template = .ok template)
    (hdata : (loadData (Files.documents t) options.data).result = .ok data) :
    (compiledText t settings request).result =
      (render template (options.context data) options.delimiters).result.mapError fun e => .compile (.scan e) := by
  unfold compiledText
  simp only [Traced.result_bind, Traced.result_ofExcept, Traced.result_mapError, hactive, hoptions,
    Result.mapError_ok, Except.bind, result_compile htemplate hload hdata]
  cases (render template (options.context data) options.delimiters).result <;> rfl

/-- Layers may be regrouped.  The first ones can always be merged by themselves first.  Of three layers the last two
can, unless some keys lead to an object in the first and in the last one and to something else between them.  So
a command, which merges its variables with the master data first, fills its template from what defaults, data,
master data and variables amount to one after the other, unless the master data separate an object below them
from one in the variables. -/
theorem layers_regroup :
    (∀ layers later : List Json, merge (layers ++ later) = merge ([merge layers] ++ later)) ∧
    (∀ a b c : Json, a.Ordered → b.Ordered → c.Ordered →
      (∀ path, path ≠ [] → ¬ SeparatedAt path (some a) (some b) (some c)) →
      merge [a, merge [b, c]] = merge [a, b, c]) ∧
    ∀ (t : FileTree) (settings active : Settings) (request : CompileRequest) (options : CompileOptions) (data : Json),
      settingsFor settings request = .ok active →
      (optionsFor t active request).result = .ok options →
      (loadData (Files.documents t) options.data).result = .ok data →
      ∃ defaults master : Option Json,
        (readLayer? t (request.defaults.orElse fun _ => active.defaultData)).result = .ok defaults ∧
        (readLayer? t (request.master.orElse fun _ => active.masterData)).result = .ok master ∧
        let below := [defaults.getD .empty, data]
        let file := master.getD .empty
        let overrides := active.overrides.toJson
        options.context data = merge (below ++ [merge [file, overrides]]) ∧
        ((∀ path, path ≠ [] → ¬ SeparatedAt path (some (merge below)) (some file) (some overrides)) →
          options.context data = merge (below ++ [file, overrides]) ∧
          ∀ template, options.template.isEmpty = false →
            loadTemplate (Files.documents t) options.template = .ok template →
            (compiledText t settings request).result =
              (render template (merge (below ++ [file, overrides])) options.delimiters).result.mapError
                fun e => .compile (.scan e)) := by
  refine ⟨Data.merge_append_eq_merge_cons, fun a b c => Data.merge_cons_merge, ?_⟩
  intro t settings active request options data hactive hoptions hdata
  have hordered := ordered_of_optionsFor hoptions
  have hdataOrdered : data.Ordered := ordered_of_loadData hordered hdata
  obtain ⟨defaults, master, hdefaults, hmaster, hd, -, hm⟩ := Variables.exists_layers_of_optionsFor hoptions
  refine ⟨defaults, master, hdefaults, hmaster, ?_⟩
  intro below file overrides
  have hcontext : options.context data = merge (below ++ [merge [file, overrides]]) := by
    unfold CompileOptions.context
    rw [hd, hm]
    rfl
  refine ⟨hcontext, ?_⟩
  intro hseparated
  have hbelow : ∀ l ∈ below, l.Ordered := by
    simpa [below] using ⟨Variables.ordered_getD_of_readLayer? hdefaults, hdataOrdered⟩
  have hfile : file.Ordered := Variables.ordered_getD_of_readLayer? hmaster
  have hflat : options.context data = merge (below ++ [file, overrides]) := by
    rw [hcontext]
    exact Data.merge_append_merge hbelow hfile (Variables.ordered_toJson _) hseparated
  refine ⟨hflat, ?_⟩
  intro template htemplate hload
  rw [← hflat]
  exact result_compiledText hactive hoptions htemplate hload hdata

/-- In three layers, and in the layers of a command, the second last one holds a word under a key under which the
last one holds an object and those below it hold nothing. -/
theorem layers_regroup_over_word :
    let word : Json := .string ['w']
    let a : Json := .object [(['k'], .object [(['x'], word)])]
    let b : Json := .object [(['k'], .object [(['y'], word)]), (['l'], word)]
    let c : Json := .object [(['k'], .object [(['y'], .object [])]), (['l'], .object [])]
    let settings : Settings := { Settings.default with masterData := some ['m'] }
    let request : CompileRequest := {
      template := ['\x7b', '\x7b', 'l', '.', 'z', '\x7d', '\x7d'], inline := true, file := false
      data := some ['\x7b', '"', 'k', '"', ':', '\x7b', '\x7d', '\x7d'], defaults := none, master := none
      assignments := [['l', '.', 'z', '=', 'v']], opening := none, closing := none, output := none }
    let t : FileTree := ⟨[([['m']], .file [0x7b, 0x22, 0x6c, 0x22, 0x3a, 0x22, 0x77, 0x22, 0x7d])], []⟩
    let data : Json := .object [(['k'], .object [])]
    let flat := merge [.empty, data, .object [(['l'], word)], .object [(['l'], .object [(['z'], .string ['v'])])]]
    merge [a, merge [b, c]] = merge [a, b, c] ∧
      (compiledText t settings request).result =
        (render request.template flat .default).result.mapError fun e => .compile (.scan e) := by
  intro word a b c settings request t data flat
  obtain ⟨-, hthree, hcommand⟩ := layers_regroup
  have hword : word.Ordered := .string _
  have hinner : ∀ key : Text, ∀ v : Json, v.Ordered → Json.Ordered (.object [(key, v)]) :=
    fun key v hv => Json.ordered_singleton key hv
  constructor
  · apply hthree a b c (hinner _ _ (hinner _ _ hword)) ((hinner ['l'] _ hword).insert ['k'] (hinner ['y'] _ hword))
      ((hinner ['l'] _ Json.ordered_empty).insert ['k'] (hinner ['y'] _ Json.ordered_empty))
    rintro (_ | ⟨key, path⟩) hne hseparated
    · exact hne rfl
    · rw [Data.separatedAt_cons_iff] at hseparated
      by_cases hk : key = ['k']
      · -- Below `k` the first layer has `x` only, and the second one only `y`.
        subst hk
        obtain ⟨x, y, -, hx, hy, -, -, hnot, -⟩ := hseparated
        cases path with
        | nil => exact hnot (Option.some.inj (Data.leads_nil_iff.1 hy) ▸ Json.isObject_object _)
        | cons inner path =>
          rw [Data.leads_cons_iff] at hx hy
          by_cases hinner : inner = ['y']
          · subst hinner
            cases hx
          · have hnone : Data.member? inner (Data.member? ['k'] (some b)) = none := by
              simp [b, Data.member?, Keyed.get?, hinner]
            rw [hnone] at hy
            cases hy
      · have hnone : Data.member? key (some a) = none := by simp [a, Keyed.get?, hk]
        rw [hnone] at hseparated
        exact Data.not_separatedAt_none hseparated
  · have hactive : settingsFor settings request = .ok { settings with overrides := [(['l', '.', 'z'], ['v'])] } := by
      rfl
    obtain ⟨defaults, master, hdefaults, hmaster, -, hflat⟩ := hcommand t settings _ request
      ⟨.inline request.template, some (.inline data), none,
        some (.object [(['l'], .object [(['z'], .string ['v'])])]), .default⟩ data hactive
      (by with_unfolding_all rfl) rfl
    have hfile : (readLayer? t (some ['m'])).result = .ok (some (.object [(['l'], word)])) := by with_unfolding_all rfl
    obtain rfl : none = defaults := Except.ok.inj hdefaults
    obtain rfl : some (.object [(['l'], word)]) = master := Except.ok.inj (hfile.symm.trans hmaster)
    have hoverrides : Variables.toJson [(['l', '.', 'z'], ['v'])] =
        .object [(['l'], .object [(['z'], .string ['v'])])] := by
      with_unfolding_all rfl
    simp only [hoverrides] at hflat
    have hbelow : merge [.empty, data] = data := rfl
    have hseparated : ∀ path, path ≠ [] → ¬ SeparatedAt path (some (merge [.empty, data]))
        (some (.object [(['l'], word)])) (some (.object [(['l'], .object [(['z'], .string ['v'])])])) := by
      rw [hbelow]
      rintro (_ | ⟨key, path⟩) hne hseparated
      · exact hne rfl
      · -- The master data hold `l` only, which is missing below them.
        rw [Data.separatedAt_cons_iff] at hseparated
        obtain ⟨x, y, -, hx, hy, -⟩ := hseparated
        by_cases hl : key = ['l']
        · subst hl
          cases hx
        · have hnone : Data.member? key (some (.object [(['l'], word)])) = none := by simp [Keyed.get?, hl]
          rw [hnone] at hy
          cases hy
    exact (hflat hseparated).2 request.template rfl rfl

end Infill.Program
