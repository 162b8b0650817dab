import Infill.Files.Store
import Infill.Proofs.Json.Readable
import Infill.Proofs.Path
import Infill.Proofs.Template.Layers
import Infill.Store.Memory

/-!
# When a template cannot be compiled

Four things stop a template from being compiled, and they are looked for in this order: its document cannot
be read, the path of its data is not the path of a data document, the document of its data is there and
cannot be read, and its delimiters are too long to be searched for (`Obstacle`).  The first of them is the
error, and without any of them there is a text.

What the document of the data holds stops nothing.  Whatever does not read as an object is as good as no
data (`Unusable`).
-/

set_option autoImplicit false

namespace Infill

/-! ## Documents of data -/

/-- The content of a document that gives no data. -/
inductive Json.Unusable (content : Bytes) : Prop where
  | blank (h : content.all isBlankByte = true)
  | malformed {e : ReadError} (h : Json.read content = .error e)
  | notText (h : Utf8.decode? content = none)
  | tooDeep (h : Json.maxDepth < Json.nesting .outside 0 content)
  | noObject {v : Json} (h : Json.read content = .ok v) (hv : ¬ v.IsObject)

namespace Documents

/-- The document at a path is missing or gives no data. -/
def GivesNoData (documents : Documents) (q : Path) : Prop :=
  documents.isThere q = false ∨ ∃ content, documents.read q = .ok content ∧ Json.Unusable content

/-- A document that cannot be read is refused under the path that it was asked for. -/
def RefusesByPath (documents : Documents) : Prop :=
  ∀ path e, documents.read path = .error e → ∃ fault, e = .access path fault

/-- Nothing unusable is held as an object with members. -/
theorem held_of_unusable {content : Bytes} (h : Json.Unusable content) :
    held content = .empty ∨ ¬ (held content).IsObject := by
  cases hread : Json.read content with
  | error e => exact .inl (held_of_error hread)
  | ok v =>
    cases h with
    | blank h =>
      obtain ⟨e, he⟩ := Json.exists_error_of_blank h
      exact .inl (held_of_error he)
    | malformed h => exact .inl (held_of_error h)
    | notText h => exact absurd h (Utf8.isText_iff.1 (Json.isText_of_read hread))
    | tooDeep h => exact absurd (Json.nesting_le_of_read hread) (by omega)
    | noObject h hv =>
      rw [held_of_read h]
      cases v <;> cases hread.symm.trans h
      · exact .inl rfl
      all_goals exact .inr hv

end Documents

/-- A store in memory tells the path that it refuses. -/
theorem MemoryStore.refusesByPath (s : MemoryStore) : s.documents.RefusesByPath := by
  intro path e h
  unfold documents at h
  dsimp only at h
  split at h
  · cases h
  · cases h
    exact ⟨_, rfl⟩

/-- Files tell the path that they refuse. -/
theorem Files.refusesByPath (t : FileTree) : (documents t).RefusesByPath := by
  intro path e h
  obtain ⟨fault, -, rfl⟩ := Result.mapError_eq_error.1 h
  exact ⟨_, rfl⟩

namespace Template

/-- The last component of a path is a name that ends in `.json`, with something in front of that. -/
def NamesData (q : Path) : Prop :=
  ∃ before stem, stem ≠ [] ∧ q.components = before ++ [.name (stem ++ '.' :: dataExtension)]

/-- A path has the extension of data if it names data. -/
theorem extension?_eq_dataExtension_iff {q : Path} :
    q.extension? = some dataExtension ↔ NamesData q :=
  Path.extension?_eq_some_iff (by decide)

/-! ## Obstacles -/

/-- The stages of compiling in which it may stop, in their order. -/
inductive Stage where
  | template
  | dataPath
  | data
  | search
  deriving DecidableEq, Repr

/-- The place of a stage in the order. -/
def Stage.rank : Stage → Nat
  | template => 0
  | dataPath => 1
  | data => 2
  | search => 3

/-- Different stages have different places. -/
theorem Stage.rank_inj {stage stage' : Stage} (h : stage.rank = stage'.rank) : stage = stage' := by
  cases stage <;> cases stage' <;> first | rfl | cases h

variable (documents : Documents) (options : CompileOptions)

/-- What stands in the way of compiling at a stage, and the error that says so. -/
inductive Obstacle : Stage → CompileError → Prop where
  | template {path : Path} {e : StoreError} (hpath : options.template = .path path)
      (hread : documents.read path = .error e) : Obstacle .template (.store e)
  | dataPath {q : Path} (hpath : options.data = some (.path q)) (hname : ¬ NamesData q) :
      Obstacle .dataPath (.dataPath q)
  | data {q : Path} {e : StoreError} (hpath : options.data = some (.path q))
      (hthere : documents.isThere q = true) (hread : documents.read q = .error e) :
      Obstacle .data (.store e)
  | search (h : options.delimiters.fits = false) : Obstacle .search (.scan .tooLong)

/-- No earlier stage has an obstacle. -/
def ClearBefore (stage : Stage) : Prop :=
  ∀ earlier : Stage, earlier.rank < stage.rank → ∀ e, ¬ Obstacle documents options earlier e

/-- An error is that of an obstacle before which there is none. -/
def FirstObstacle (e : CompileError) : Prop :=
  ∃ stage, Obstacle documents options stage e ∧ ClearBefore documents options stage

variable {documents options}

/-- Nothing stands before the template. -/
theorem clearBefore_template : ClearBefore documents options .template := by
  intro earlier hrank
  cases hrank

/-- The way is clear up to the next stage, if there is no obstacle at this one. -/
theorem ClearBefore.next {stage next : Stage} (h : ClearBefore documents options stage)
    (hstage : ∀ e, ¬ Obstacle documents options stage e) (hnext : next.rank = stage.rank + 1) :
    ClearBefore documents options next := by
  intro earlier hrank
  by_cases hearlier : earlier.rank < stage.rank
  · exact h earlier hearlier
  · obtain rfl : earlier = stage := Stage.rank_inj (by omega)
    exact hstage

/-- There is one error for the obstacle at a stage. -/
theorem Obstacle.unique {stage : Stage} {e e' : CompileError} (h : Obstacle documents options stage e)
    (h' : Obstacle documents options stage e') : e = e' := by
  cases h with
  | template hpath hread =>
    cases h' with
    | template hpath' hread' =>
      cases hpath.symm.trans hpath'
      cases hread.symm.trans hread'
      rfl
  | dataPath hpath _ =>
    cases h' with
    | dataPath hpath' _ =>
      cases hpath.symm.trans hpath'
      rfl
  | data hpath _ hread =>
    cases h' with
    | data hpath' _ hread' =>
      cases hpath.symm.trans hpath'
      cases hread.symm.trans hread'
      rfl
  | search _ =>
    cases h'
    rfl

/-- There is one first obstacle at most. -/
theorem FirstObstacle.unique {e e' : CompileError} (h : FirstObstacle documents options e)
    (h' : FirstObstacle documents options e') : e = e' := by
  obtain ⟨stage, hstage, hclear⟩ := h
  obtain ⟨stage', hstage', hclear'⟩ := h'
  rcases Nat.lt_trichotomy stage.rank stage'.rank with hrank | hrank | hrank
  · exact absurd hstage (hclear' stage hrank e)
  · obtain rfl := Stage.rank_inj hrank
    exact hstage.unique hstage'
  · exact absurd hstage' (hclear stage' hrank e')

/-! ## The stages -/

/-- The template is not loaded where it is the obstacle. -/
theorem loadTemplate_error_iff {e : CompileError} :
    (loadTemplate documents options.template).mapError .store = .error e ↔
      Obstacle documents options .template e := by
  rw [Result.mapError_eq_error]
  constructor
  · rintro ⟨error, hload, rfl⟩
    cases htemplate : options.template with
    | inline content =>
      rw [htemplate] at hload
      cases hload
    | path path =>
      rw [htemplate] at hload
      exact .template htemplate (Result.map_eq_error.1 hload)
  · rintro ⟨hpath, hread⟩
    refine ⟨_, ?_, rfl⟩
    rw [hpath]
    exact Result.map_eq_error.2 hread

/-- The data of a path that does not name data are refused. -/
theorem result_loadDataFile_of_not_namesData {q : Path} (h : ¬ NamesData q) :
    (loadDataFile documents q).result = .error (.dataPath q) := by
  rw [loadDataFile, if_pos (fun hextension => h (extension?_eq_dataExtension_iff.1 hextension))]
  rfl

/-- The data of a path that names data are those of its document, or none if there is no document. -/
theorem result_loadDataFile {q : Path} (h : NamesData q) :
    (loadDataFile documents q).result =
      if documents.isThere q then ((documents.read q).map Documents.held).mapError .store
      else .ok .empty := by
  rw [loadDataFile, if_neg (fun hne => hne (extension?_eq_dataExtension_iff.2 h))]
  split
  · rw [Traced.result_mapError, Documents.result_readJson]
  · rfl

/-- A path of data is refused at the one stage or the other. -/
theorem loadData_error_iff {e : CompileError} :
    (loadData documents options.data).result = .error e ↔
      Obstacle documents options .dataPath e ∨
        (∀ e', ¬ Obstacle documents options .dataPath e') ∧ Obstacle documents options .data e := by
  constructor
  · intro h
    match hdata : options.data with
    | none | some (.inline _) =>
      rw [hdata] at h
      cases h
    | some (.path q) =>
      replace h : (loadDataFile documents q).result = .error e := by rwa [hdata] at h
      by_cases hname : NamesData q
      · have hacceptable : ∀ e', ¬ Obstacle documents options .dataPath e' := by
          intro e' hobstacle
          cases hobstacle with
          | dataPath hpath hname' =>
            rw [hdata] at hpath
            cases hpath
            exact hname' hname
        rw [result_loadDataFile hname] at h
        split at h
        · rename_i hthere
          obtain ⟨error, hread, rfl⟩ := Result.mapError_eq_error.1 h
          exact .inr ⟨hacceptable, .data hdata hthere (Result.map_eq_error.1 hread)⟩
        · cases h
      · rw [result_loadDataFile_of_not_namesData hname] at h
        cases h
        exact .inl (.dataPath hdata hname)
  · rintro (hobstacle | ⟨hacceptable, hobstacle⟩)
    · cases hobstacle with
      | dataPath hpath hname =>
        rw [hpath]
        exact result_loadDataFile_of_not_namesData hname
    · cases hobstacle with
      | @data q _ hpath hthere hread =>
        have hname : NamesData q := by
          by_contra hname
          exact hacceptable _ (.dataPath hpath hname)
        rw [hpath]
        show (loadDataFile documents q).result = _
        rw [result_loadDataFile hname, if_pos hthere, hread]
        rfl

/-- Placeholders are not found where the search is the obstacle. -/
theorem search_error_iff (template : Text) (context : Json) {e : CompileError} :
    (render template context options.delimiters).result.mapError .scan = .error e ↔
      Obstacle documents options .search e := by
  rw [render, Traced.result_bind, Traced.result_ofExcept, scan]
  by_cases hfits : options.delimiters.fits = true
  · rw [if_pos hfits]
    constructor
    · intro h
      cases h
    · intro h
      cases h with
      | search h =>
        rw [hfits] at h
        cases h
  · rw [if_neg hfits]
    constructor
    · intro h
      cases h
      exact .search (by simpa using hfits)
    · intro h
      cases h
      rfl

/-! ## Compiling -/

/-- What succeeds at a stage meets no obstacle there. -/
theorem not_obstacle_of_ok {α : Type} {x : Except CompileError α} {stage : Stage} {a : α}
    (hstage : ∀ e, x = .error e ↔ Obstacle documents options stage e) (h : x = .ok a) (e : CompileError) :
    ¬ Obstacle documents options stage e := by
  intro hobstacle
  rw [(hstage e).2 hobstacle] at h
  cases h

/-- Compiling ends with the error of the first obstacle, or with a text if there is none. -/
theorem result_compile_cases (h : options.template.isEmpty = false) :
    (∃ e, (compile documents options).result = .error e ∧ FirstObstacle documents options e) ∨
      (∃ text, (compile documents options).result = .ok text) ∧
        ∀ stage e, ¬ Obstacle documents options stage e := by
  rw [result_compile_eq_bind h]
  cases htemplate : (loadTemplate documents options.template).mapError CompileError.store with
  | error e => exact .inl ⟨e, rfl, .template, loadTemplate_error_iff.1 htemplate, clearBefore_template⟩
  | ok template =>
    have hclear : ClearBefore documents options .dataPath :=
      clearBefore_template.next (not_obstacle_of_ok (fun _ => loadTemplate_error_iff) htemplate) rfl
    show (∃ e, (loadData documents options.data).result.bind _ = _ ∧ _) ∨
      (∃ text, (loadData documents options.data).result.bind _ = _) ∧ _
    cases hdata : (loadData documents options.data).result with
    | error e =>
      rcases loadData_error_iff.1 hdata with hobstacle | ⟨hnoPath, hobstacle⟩
      · exact .inl ⟨e, rfl, .dataPath, hobstacle, hclear⟩
      · exact .inl ⟨e, rfl, .data, hobstacle, hclear.next hnoPath rfl⟩
    | ok data =>
      have hno : ∀ e, ¬ (Obstacle documents options .dataPath e ∨
          (∀ e', ¬ Obstacle documents options .dataPath e') ∧ Obstacle documents options .data e) := by
        intro e he
        rw [loadData_error_iff.2 he] at hdata
        cases hdata
      have hnoPath : ∀ e, ¬ Obstacle documents options .dataPath e := fun e he => hno e (.inl he)
      have hnoData : ∀ e, ¬ Obstacle documents options .data e := fun e he => hno e (.inr ⟨hnoPath, he⟩)
      replace hclear : ClearBefore documents options .search := (hclear.next hnoPath rfl).next hnoData rfl
      show (∃ e, (render template (options.context data) options.delimiters).result.mapError _ = _ ∧ _) ∨
        (∃ text, (render template (options.context data) options.delimiters).result.mapError _ = _) ∧ _
      cases hrender : (render template (options.context data) options.delimiters).result.mapError
          CompileError.scan with
      | error e => exact .inl ⟨e, rfl, .search, (search_error_iff _ _).1 hrender, hclear⟩
      | ok text =>
        have hnoSearch : ∀ e, ¬ Obstacle documents options .search e :=
          not_obstacle_of_ok (fun _ => search_error_iff _ _) hrender
        refine .inr ⟨⟨text, rfl⟩, fun stage => ?_⟩
        cases stage with
        | search => exact hnoSearch
        | _ => exact hclear _ (by decide)

/-! ## Data that do not count -/

/-- Data that are no object add nothing to the other layers. -/
theorem CompileOptions.context_of_not_isObject (options : CompileOptions) {data : Json}
    (h : data = .empty ∨ ¬ data.IsObject) : options.context data = options.context .empty := by
  rcases h with rfl | h
  · rfl
  · have hover : ∀ target, Data.overlayLayer target data = Data.overlayLayer target .empty :=
      fun target => Data.overlayLayer_of_not_isObject target h
    simp only [context, Data.merge, List.foldl_cons, hover]

/-- A document that is missing or gives no data is as good as no data. -/
theorem result_compile_of_givesNoData {q : Path} (hpath : options.data = some (.path q)) (hname : NamesData q)
    (h : documents.GivesNoData q) :
    (compile documents options).result = (compile documents { options with data := none }).result := by
  obtain ⟨data, hdata, hnothing⟩ : ∃ data, (loadData documents options.data).result = .ok data ∧
      (data = .empty ∨ ¬ data.IsObject) := by
    rw [hpath]
    show ∃ data, (loadDataFile documents q).result = .ok data ∧ _
    rw [result_loadDataFile hname]
    by_cases hthere : documents.isThere q = true
    · rw [if_pos hthere]
      rcases h with hmissing | ⟨content, hread, hunusable⟩
      · rw [hthere] at hmissing
        cases hmissing
      · exact ⟨Documents.held content, by rw [hread]; rfl, Documents.held_of_unusable hunusable⟩
    · rw [if_neg hthere]
      exact ⟨.empty, rfl, .inl rfl⟩
  have hcontext : options.context data = options.context .empty :=
    options.context_of_not_isObject hnothing
  cases htemplate : options.template.isEmpty with
  | true =>
    rw [compile, compile, if_pos htemplate, if_pos htemplate]
  | false =>
    have hwithout := @result_compile_eq_bind documents { options with data := none } htemplate
    rw [result_compile_eq_bind htemplate, hwithout, hdata]
    simp only [Except.bind, hcontext]
    rfl

/-- An empty template is compiled to the empty text, and no store is looked at.  Any other template is
compiled to a text unless there is an obstacle, and the error is that of the first obstacle: it is never
about the header of a document.  A document of data that is missing, or that is no object when it is read,
changes nothing.  What a store refuses to read, in memory or in files, it refuses under the path that was
asked for. -/
theorem compile_stops_at_first_obstacle (documents : Documents) (options : CompileOptions) :
    (options.template.isEmpty = true → ∀ others : Documents, compile others options = pure []) ∧
    (options.template.isEmpty = false →
      (∀ e, (compile documents options).result = .error e ↔ FirstObstacle documents options e) ∧
      ((∃ text, (compile documents options).result = .ok text) ↔
        ∀ stage e, ¬ Obstacle documents options stage e) ∧
      ∀ error, (compile documents options).result ≠ .error (.header error)) ∧
    (∀ q, options.data = some (.path q) → NamesData q → documents.GivesNoData q →
      (compile documents options).result = (compile documents { options with data := none }).result) ∧
    (∀ s : MemoryStore, s.documents.RefusesByPath) ∧ ∀ t : FileTree, (Files.documents t).RefusesByPath := by
  refine ⟨fun hempty others => ?_, fun hempty => ?_, fun q => result_compile_of_givesNoData,
    MemoryStore.refusesByPath, Files.refusesByPath⟩
  · rw [compile, if_pos hempty]
  · have hcases := @result_compile_cases documents options hempty
    have hfirst : ∀ e, (compile documents options).result = .error e ↔ FirstObstacle documents options e := by
      intro e
      rcases hcases with ⟨e', hresult, hfirst⟩ | ⟨⟨text, hresult⟩, hclear⟩
      · rw [hresult]
        constructor
        · rintro h
          cases h
          exact hfirst
        · intro h
          rw [h.unique hfirst]
      · rw [hresult]
        constructor
        · intro h
          cases h
        · rintro ⟨stage, hobstacle, -⟩
          exact absurd hobstacle (hclear stage e)
    refine ⟨hfirst, ?_, fun error herror => ?_⟩
    · rcases hcases with ⟨e, hresult, stage, hobstacle, -⟩ | ⟨htext, hclear⟩
      · rw [hresult]
        constructor
        · rintro ⟨text, htext⟩
          cases htext
        · intro hclear
          exact absurd hobstacle (hclear stage e)
      · exact iff_of_true htext hclear
    · obtain ⟨stage, hobstacle, -⟩ := (hfirst _).1 herror
      cases hobstacle

/-- The path `.json` names no data, although there is a document of that name and no placeholder asks for
data.  A blank document changes nothing, and an empty template is not read. -/
theorem compile_stops_at_first_obstacle_dot_json :
    let hidden : Path := ['.', 'j', 's', 'o', 'n']
    let blank : Path := 'a' :: hidden
    let documents := (MemoryStore.ofList [(hidden, [0x7b, 0x7d]), (blank, [0x0a])]).documents
    let filled (q : Path) : CompileOptions := ⟨.inline ['x'], some (.path q), none, none, .default⟩
    let empty : CompileOptions := ⟨.inline [], some (.path hidden), none, none, .default⟩
    FirstObstacle documents (filled hidden) (.dataPath hidden) ∧
      (compile documents (filled blank)).result =
        (compile documents { filled blank with data := none }).result ∧
      compile documents empty = pure [] := by
  intro hidden blank documents filled empty
  refine ⟨?_, ?_, ?_⟩
  · have hresult : (compile documents (filled hidden)).result = .error (.dataPath hidden) := by rfl
    exact ((compile_stops_at_first_obstacle documents (filled hidden)).2.1 rfl).1 _ |>.1 hresult
  · have hname : NamesData blank := ⟨[], ['a'], by decide, by decide⟩
    have hnothing : documents.GivesNoData blank := .inr ⟨[0x0a], rfl, .blank rfl⟩
    exact (compile_stops_at_first_obstacle documents (filled blank)).2.2.1 blank rfl hname hnothing
  · exact (compile_stops_at_first_obstacle documents empty).1 rfl documents

end Template
end Infill
