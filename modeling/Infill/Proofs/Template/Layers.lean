import Infill.Template.Compile
import Infill.Proofs.Data.Precedence

/-!
# The layers of a template

A template is compiled with defaults, data and master data, of which the first and the last may be
absent.  A layer that is absent is as good as none (`CompileOptions.context_eq`), so that what a token
sees follows from the rules for merges of any number of layers.
-/

set_option autoImplicit false

namespace Infill.Template

/-- The data given in the options are ordered. -/
structure CompileOptions.Ordered (options : CompileOptions) : Prop where
  defaults : ∀ value ∈ options.defaults, Json.Ordered value
  data : ∀ value, options.data = some (.inline value) → Json.Ordered value
  master : ∀ value ∈ options.master, Json.Ordered value

/-- What the layers amount to, once the data are loaded. -/
def CompileOptions.context (options : CompileOptions) (data : Json) : Json :=
  Data.merge [options.defaults.getD .empty, data, options.master.getD .empty]

/-- A layer that may be absent counts as one layer or none. -/
theorem merge_getD_empty (front : List Json) (layer : Option Json) (back : List Json) :
    Data.merge (front ++ layer.getD .empty :: back) = Data.merge (front ++ (layer.toList ++ back)) := by
  rw [Data.merge_append, Data.merge_append]
  cases layer <;> rfl

/-- The context is the merge of the layers that are there. -/
theorem CompileOptions.context_eq (options : CompileOptions) (data : Json) :
    options.context data = Data.merge (options.defaults.toList ++ data :: options.master.toList) := by
  have hmaster := merge_getD_empty [options.defaults.getD .empty, data] options.master []
  have hdefaults := merge_getD_empty [] options.defaults (data :: options.master.toList)
  simp only [List.cons_append, List.nil_append, List.append_nil] at hmaster hdefaults
  rw [context, hmaster, hdefaults]

/-- What is loaded as data is ordered. -/
theorem ordered_of_loadData {documents : Documents} {options : CompileOptions} {data : Json}
    (h : options.Ordered) (hload : (loadData documents options.data).result = .ok data) :
    data.Ordered := by
  match hsource : options.data with
  | none =>
    obtain rfl : .empty = data := by simpa [hsource, loadData] using hload
    exact Json.ordered_empty
  | some (.inline value) =>
    obtain rfl : value = data := by simpa [hsource, loadData] using hload
    exact h.data value hsource
  | some (.path path) =>
    rw [hsource, loadData, loadDataFile] at hload
    split at hload
    · simp at hload
    · split at hload
      · rw [Traced.result_mapError, Result.mapError_eq_ok] at hload
        exact Json.ordered_of_readJson hload
      · obtain rfl : .empty = data := by simpa [Except.bind] using hload
        exact Json.ordered_empty

/-- Compiling loads the template, then the data, and then fills the template. -/
theorem result_compile_eq_bind {documents : Documents} {options : CompileOptions}
    (htemplate : options.template.isEmpty = false) :
    (compile documents options).result =
      ((loadTemplate documents options.template).mapError .store).bind fun template =>
        (loadData documents options.data).result.bind fun data =>
          (render template (options.context data) options.delimiters).result.mapError .scan := by
  rw [compile, if_neg (by simp [htemplate])]
  simp only [Traced.result_bind, Traced.result_say, Traced.result_ofExcept, Traced.result_mapError]
  rfl

/-- A template that is there is filled with its context. -/
theorem result_compile {documents : Documents} {options : CompileOptions} {template : Text}
    {data : Json} (htemplate : options.template.isEmpty = false)
    (hload : loadTemplate documents options.template = .ok template)
    (hdata : (loadData documents options.data).result = .ok data) :
    (compile documents options).result =
      (render template (options.context data) options.delimiters).result.mapError .scan := by
  rw [result_compile_eq_bind htemplate, hload, Result.mapError_ok, hdata]
  rfl

/-- Which layer a token sees, if it sees no object.  What the path is resolved to in the last layer
stands.  What it leads to in a layer through objects only stands if the later layers leave the path
open.  So a template sees its master data before its data, and its data before its defaults, which
count where the other two leave the path open and nowhere else. -/
theorem layer_precedence {path : Text} {v : Json} (hpath : path ≠ []) (hv : ¬ v.IsObject) :
    (∀ (earlier : List Json) (last : Json), last.Ordered → last.IsObject →
      Data.resolve last path = some v → Data.resolve (Data.merge (earlier ++ [last])) path = some v) ∧
    (∀ (earlier : List Json) (layer : Json) (later : List Json), (∀ l ∈ layer :: later, l.Ordered) →
      layer.IsObject → Data.Leads (some layer) (Data.keys path) v →
      Data.LeftOpen later (Data.keys path) →
      Data.resolve (Data.merge (earlier ++ layer :: later)) path = some v) ∧
    ∀ (documents : Documents) (options : CompileOptions) (template : Text) (data : Json),
      options.Ordered → options.template.isEmpty = false →
      loadTemplate documents options.template = .ok template →
      (loadData documents options.data).result = .ok data →
      let context := options.context data
      let upper := data :: options.master.toList
      (compile documents options).result =
        (render template context options.delimiters).result.mapError .scan ∧
      (∀ master ∈ options.master, master.IsObject → Data.resolve master path = some v →
        Data.resolve context path = some v) ∧
      (data.IsObject → Data.resolve data path = some v →
        (∀ master ∈ options.master, ¬ master.IsObject) → Data.resolve context path = some v) ∧
      (data.IsObject → Data.Leads (some data) (Data.keys path) v →
        Data.LeftOpen options.master.toList (Data.keys path) → Data.resolve context path = some v) ∧
      ∀ defaults ∈ options.defaults, defaults.IsObject →
        Data.Leads (some defaults) (Data.keys path) v →
        (Data.LeftOpen upper (Data.keys path) → Data.resolve context path = some v) ∧
        (¬ Data.LeftOpen upper (Data.keys path) →
          Data.resolve context path = Data.resolve (Data.merge upper) path) := by
  have hlast : ∀ (earlier : List Json) (last : Json), last.Ordered → last.IsObject →
      Data.resolve last path = some v →
      Data.resolve (Data.merge (earlier ++ [last])) path = some v :=
    fun earlier last hordered hobject => Data.resolve_merge_last earlier hpath hordered hobject hv
  have hamong : ∀ (earlier : List Json) (layer : Json) (later : List Json),
      (∀ l ∈ layer :: later, l.Ordered) → layer.IsObject →
      Data.Leads (some layer) (Data.keys path) v →
      Data.LeftOpen later (Data.keys path) →
      Data.resolve (Data.merge (earlier ++ layer :: later)) path = some v :=
    fun earlier layer later hordered hobject =>
      Data.resolve_merge_of_leads earlier hpath hordered hobject hv
  refine ⟨hlast, hamong, ?_⟩
  intro documents options template data hordered htemplate hload hdata context upper
  have hcontext : context = Data.merge (options.defaults.toList ++ upper) :=
    options.context_eq data
  have hupper : ∀ l ∈ upper, l.Ordered := by
    intro l hl
    rcases List.mem_cons.1 hl with rfl | hl
    · exact ordered_of_loadData hordered hdata
    · exact hordered.master l (by simpa using hl)
  refine ⟨result_compile htemplate hload hdata, ?_, ?_, ?_, ?_⟩
  · intro master hmaster hobject hresolve
    have hsplit : options.defaults.toList ++ upper = options.defaults.toList ++ [data] ++ [master] := by
      simp [upper, Option.mem_def.1 hmaster]
    rw [hcontext, hsplit]
    exact hlast _ master (hordered.master master hmaster) hobject hresolve
  · intro hobject hresolve hmaster
    have hsplit : options.defaults.toList ++ upper =
        options.defaults.toList ++ [data] ++ options.master.toList := by
      simp [upper]
    rw [hcontext, hsplit, Data.merge_append_of_not_isObject _ (by simpa using hmaster)]
    exact hlast _ data (hupper data List.mem_cons_self) hobject hresolve
  · intro hobject hleads hmaster
    rw [hcontext]
    exact hamong _ data _ hupper hobject hleads hmaster
  · intro defaults hdefaults hobject hleads
    have hlayers : ∀ l ∈ defaults :: upper, l.Ordered := by
      intro l hl
      rcases List.mem_cons.1 hl with rfl | hl
      · exact hordered.defaults l hdefaults
      · exact hupper l hl
    have hsplit : options.defaults.toList ++ upper = defaults :: upper := by
      simp [Option.mem_def.1 hdefaults]
    rw [hcontext, hsplit]
    refine ⟨fun hopen => ?_, fun hblocked => ?_⟩
    · exact hamong [] defaults upper hlayers hobject hleads hopen
    · exact Data.resolve_merge_of_blocked hpath hlayers hobject hv hleads hblocked

/-- A word under two keys, over and under an object that leaves the second key open. -/
theorem layer_precedence_default :
    let path := ['a', '.', 'b']
    let word : Json := .string ['d']
    let given : Json := .object [(['a'], .object [(['b'], word)])]
    let opened : Json := .object [(['a'], .object [])]
    let options : CompileOptions :=
      ⟨.inline ['x'], some (.inline opened), some given, none, ⟨['('], [')']⟩⟩
    Data.resolve (Data.merge ([opened, .array []] ++ [given])) path = some word ∧
      Data.resolve (Data.merge ([.null] ++ given :: [.array [], opened])) path = some word ∧
      Data.resolve (options.context opened) path = some word := by
  intro path word given opened options
  have hgiven : given.Ordered := Json.ordered_singleton _ (Json.ordered_singleton _ (.string _))
  have hopened : opened.Ordered := Json.ordered_singleton _ Json.ordered_empty
  have hoptions : options.Ordered :=
    ⟨by simpa [options] using hgiven, by simpa [options] using hopened, by simp [options]⟩
  have hkeys : Data.keys path = [['a'], ['b']] := by cbv
  have hleads : Data.Leads (some given) (Data.keys path) word :=
    hkeys ▸ .member (.member (.here word))
  have hopens : Data.LeavesOpen (some opened) (Data.keys path) :=
    hkeys ▸ .member (.member (.absent []))
  have hopen : Data.LeftOpen [opened] (Data.keys path) := by simpa [Data.LeftOpen] using fun _ => hopens
  have hpath : path ≠ [] := by decide
  have hword : ¬ word.IsObject := by decide
  obtain ⟨hlast, hamong, hcompile⟩ := layer_precedence hpath hword
  refine ⟨hlast _ given hgiven ⟨_, rfl⟩ (by cbv), ?_, ?_⟩
  · refine hamong _ given _ ?_ ⟨_, rfl⟩ hleads ?_
    · simp [hgiven, hopened, Json.Ordered.array]
    · exact Data.leftOpen_cons_iff.2 ⟨fun h => absurd h (by decide), hopen⟩
  · obtain ⟨-, -, -, -, hdefaults⟩ := hcompile ⟨fun _ => false, fun _ => .ok []⟩ options ['x'] opened
      hoptions rfl rfl rfl
    exact (hdefaults given rfl ⟨_, rfl⟩ hleads).1 hopen

end Infill.Template
