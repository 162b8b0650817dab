import Infill.Files.Store
import Infill.Proofs.Files.Holding
import Infill.Proofs.Result
import Infill.Store.Memory
import Infill.Template.Compile

/-!
# Documents in memory and in files

A store in memory stands in for a folder.  Where a folder holds the same documents, and nothing but them
and the folders that lead to them, a path that is plain and neither leads to one of these folders nor
through a document is either there in both stores, with the same content, or missing in both
(`found_or_missing`).  What is asked of stores next depends on the answers so far, so that stores which
answer alike stay alike in whatever is read, split or compiled (`Documents.AlikeAt`).

The two differ in what they say of a path that the system does not take: for the folder that is a fault
of its own, while in memory nothing is there.
-/

set_option autoImplicit false

namespace Infill

open Template (CompileError CompileOptions compile splitDocument)
open Result (Alike)

/-- The kinds of errors of a store. -/
inductive StoreError.Kind where
  | access
  | missingRoot
  | pattern
  | search
  | walk
  deriving DecidableEq, Repr

/-- The kind of an error of a store. -/
def StoreError.kind : StoreError → StoreError.Kind
  | access _ _ => .access
  | missingRoot _ => .missingRoot
  | pattern _ => .pattern
  | search _ _ => .search
  | walk _ _ => .walk

/-- The kinds of errors of compiling and splitting. -/
inductive Template.CompileError.Kind where
  | dataPath
  | header
  | scan
  | store (kind : StoreError.Kind)
  deriving DecidableEq, Repr

/-- The kind of an error of compiling or splitting. -/
def Template.CompileError.kind : CompileError → CompileError.Kind
  | dataPath _ => .dataPath
  | header _ => .header
  | scan _ => .scan
  | store error => .store error.kind

/-- Whether an error says that a document was not there. -/
def Template.CompileError.isNotFound : CompileError → Bool
  | store error => error.isNotFound
  | _ => false

/-- Errors of one kind, which agree on whether a path was there if the system takes the path. -/
def StoreError.AlikeAt (q : Path) (e e' : StoreError) : Prop :=
  e.kind = e'.kind ∧ (FileTree.Takes q → e.isNotFound = e'.isNotFound)

/-- Errors of one kind, which agree on whether a document was there if the system takes the path. -/
def Template.CompileError.AlikeAt (q : Path) (e e' : CompileError) : Prop :=
  e.kind = e'.kind ∧ (FileTree.Takes q → e.isNotFound = e'.isNotFound)

/-- Errors of one kind. -/
def Template.CompileError.SameKind (e e' : CompileError) : Prop := e.kind = e'.kind

/-- A plain path that neither leads to a folder of some documents nor through one of them, and that the
system takes if it is the path of one. -/
structure Beside (documents : List (Path × Bytes)) (q : Path) : Prop where
  plain : q.IsPlain
  apart : ∀ d ∈ documents, ¬ Text.Extends '/' q d.1 ∧ ¬ Text.Extends '/' d.1 q
  taken : ∀ d ∈ documents, d.1 = q → FileTree.Takes q

/-! ## Documents in memory -/

namespace MemoryStore

/-- A document more is inserted last. -/
theorem ofList_append_singleton (documents : List (Path × Bytes)) (last : Path × Bytes) :
    ofList (documents ++ [last]) = (ofList documents).insert last.1 last.2 := by
  simp [ofList]

/-- A plain path that is none of some plain paths is not among the documents at them. -/
theorem get?_ofList_eq_none {documents : List (Path × Bytes)} {q : Path} (hq : q.IsPlain)
    (h : ∀ d ∈ documents, d.1.IsPlain ∧ q ≠ d.1) : (ofList documents).get? q = none := by
  induction documents using List.reverseRecOn with
  | nil => rfl
  | append_singleton documents last ih =>
    obtain ⟨hlast, hne⟩ := h last (by simp)
    have hcomponents : q.components ≠ last.1.components :=
      fun heq => hne (hq.eq_of_components_eq hlast heq)
    rw [ofList_append_singleton, get?_insert_of_components_ne last.2 hcomponents]
    exact ih fun d hd => h d (List.mem_append_left _ hd)

/-- Of documents at different plain paths each is found under its own. -/
theorem get?_ofList_of_mem {documents : List (Path × Bytes)}
    (hplain : ∀ d ∈ documents, d.1.IsPlain) (hdistinct : documents.Pairwise fun d e => d.1 ≠ e.1)
    {d : Path × Bytes} (hd : d ∈ documents) : (ofList documents).get? d.1 = some d.2 := by
  induction documents using List.reverseRecOn with
  | nil => cases hd
  | append_singleton documents last ih =>
    obtain ⟨hfront, -, hlast⟩ := List.pairwise_append.1 hdistinct
    rw [ofList_append_singleton]
    rcases List.mem_append.1 hd with hd | hd
    · have hcomponents : d.1.components ≠ last.1.components := fun heq =>
        hlast d hd last (by simp)
          ((hplain d (List.mem_append_left _ hd)).eq_of_components_eq (hplain last (by simp)) heq)
      rw [get?_insert_of_components_ne last.2 hcomponents]
      exact ih (fun e he => hplain e (List.mem_append_left _ he)) hfront hd
    · obtain rfl : d = last := by simpa using hd
      exact get?_insert_of_components_eq d.2 rfl

end MemoryStore

/-! ## Stores that answer alike -/

namespace StoreError

/-- An error is like itself. -/
theorem AlikeAt.refl (q : Path) (e : StoreError) : AlikeAt q e e := ⟨rfl, fun _ => rfl⟩

/-- Errors of stores are alike as errors of compiling. -/
theorem AlikeAt.store {q : Path} {e e' : StoreError} (h : AlikeAt q e e') :
    CompileError.AlikeAt q (.store e) (.store e') :=
  ⟨congrArg CompileError.Kind.store h.1, h.2⟩

end StoreError

namespace Template.CompileError

/-- An error is like itself. -/
theorem AlikeAt.refl (q : Path) (e : CompileError) : AlikeAt q e e := ⟨rfl, fun _ => rfl⟩

/-- An error is of its own kind. -/
theorem SameKind.refl (e : CompileError) : SameKind e e := rfl

end Template.CompileError

/-- Two stores give the same answers about a path, but for what their errors say. -/
structure Documents.AlikeAt (q : Path) (documents others : Documents) : Prop where
  isThere : documents.isThere q = others.isThere q
  read : Alike (StoreError.AlikeAt q) (documents.read q) (others.read q)

namespace Documents.AlikeAt

variable {documents others : Documents} {q : Path}

/-- Data is read alike. -/
theorem readJson (h : AlikeAt q documents others) :
    Alike (StoreError.AlikeAt q) (documents.readJson q).result (others.readJson q).result := by
  simp only [Documents.readJson, Traced.result_bind, Traced.result_ofExcept]
  apply h.read.bind
  intro content
  exact Alike.refl (StoreError.AlikeAt.refl q) _

/-- A document is split alike. -/
theorem splitDocument (h : AlikeAt q documents others) :
    Alike (CompileError.AlikeAt q) (splitDocument documents q).result
      (splitDocument others q).result := by
  simp only [Template.splitDocument, Traced.result_bind, Traced.result_ofExcept]
  apply (h.read.mapError fun _ _ => StoreError.AlikeAt.store).bind
  intro content
  exact Alike.refl (CompileError.AlikeAt.refl q) _

/-! Compiling asks for two paths, so that only the kinds of errors can be compared. -/

/-- A template is loaded alike. -/
theorem loadTemplate {source : Template.TemplateSource}
    (h : ∀ q, source = .path q → AlikeAt q documents others) :
    Alike CompileError.SameKind
      ((Template.loadTemplate documents source).mapError .store)
      ((Template.loadTemplate others source).mapError .store) := by
  cases source with
  | inline content => exact .ok content
  | path q =>
    have hread := (h q rfl).read.map Utf8.decodeLossy
    exact hread.mapError fun e e' he => he.store.1

/-- A file of data is loaded alike. -/
theorem loadDataFile (h : AlikeAt q documents others) :
    Alike CompileError.SameKind
      (Template.loadDataFile documents q).result (Template.loadDataFile others q).result := by
  unfold Template.loadDataFile
  by_cases hextension : q.extension? ≠ some Template.dataExtension
  · rw [if_pos hextension, if_pos hextension]
    exact .error rfl
  · rw [if_neg hextension, if_neg hextension, h.isThere]
    by_cases hthere : others.isThere q = true
    · rw [if_pos hthere, if_pos hthere]
      exact h.readJson.mapError fun e e' he => he.store.1
    · rw [if_neg hthere, if_neg hthere]
      exact Alike.refl CompileError.SameKind.refl _

/-- Data is loaded alike, wherever it comes from. -/
theorem loadData {source : Option Template.DataSource}
    (h : ∀ q, source = some (.path q) → AlikeAt q documents others) :
    Alike CompileError.SameKind
      (Template.loadData documents source).result (Template.loadData others source).result := by
  match source with
  | none | some (.inline _) => exact .ok _
  | some (.path q) => exact (h q rfl).loadDataFile

/-- Compiling ends alike. -/
theorem compile {options : CompileOptions}
    (h : ∀ q, options.template = .path q ∨ options.data = some (.path q) →
      AlikeAt q documents others) :
    Alike CompileError.SameKind
      (Template.compile documents options).result (Template.compile others options).result := by
  unfold Template.compile
  by_cases hempty : options.template.isEmpty = true
  · rw [if_pos hempty, if_pos hempty]
    exact .ok _
  · rw [if_neg hempty, if_neg hempty]
    simp only [Traced.result_bind, Traced.result_say, Traced.result_ofExcept]
    apply Alike.bind (.ok ())
    intro _
    apply (loadTemplate fun q hq => h q (.inl hq)).bind
    intro template
    apply (loadData fun q hq => h q (.inr hq)).bind
    intro data
    exact Alike.refl CompileError.SameKind.refl _

end Documents.AlikeAt

/-! ## The two stores side by side -/

section Stores

variable {documents : List (Path × Bytes)} {t : FileTree}

/-- A document is found in both stores. -/
theorem found_of_mem (hplain : ∀ d ∈ documents, d.1.IsPlain)
    (hdistinct : documents.Pairwise fun d e => d.1 ≠ e.1) (hholds : t.Holds documents)
    {d : Path × Bytes} (hd : d ∈ documents) (htakes : FileTree.Takes d.1) :
    (MemoryStore.ofList documents).get? d.1 = some d.2 ∧ t.exists? d.1 = true ∧
      t.readFile d.1 = .ok d.2 := by
  have hget := MemoryStore.get?_ofList_of_mem hplain hdistinct hd
  have hfind := hholds.find_of_mem hd (hplain d hd) htakes
  refine ⟨hget, ?_, FileTree.readFile_of_find hfind (hholds.files d hd)⟩
  unfold FileTree.exists?
  rw [hfind]

/-- A path beside the documents is there in both stores, with one content, or missing in both. -/
theorem found_or_missing (hplain : ∀ d ∈ documents, d.1.IsPlain)
    (hdistinct : documents.Pairwise fun d e => d.1 ≠ e.1) (hholds : t.Holds documents) {q : Path}
    (hq : Beside documents q) :
    (∃ content, (MemoryStore.ofList documents).get? q = some content ∧
      t.exists? q = true ∧ t.readFile q = .ok content) ∨
    ∃ fault, (MemoryStore.ofList documents).get? q = none ∧
      t.exists? q = false ∧ t.readFile q = .error fault ∧
      (FileTree.Takes q → fault = .notFound) := by
  by_cases hstored : ∃ d ∈ documents, q = d.1
  · obtain ⟨d, hd, rfl⟩ := hstored
    exact .inl ⟨d.2, found_of_mem hplain hdistinct hholds hd (hq.taken d hd rfl)⟩
  · have hget : (MemoryStore.ofList documents).get? q = none :=
      MemoryStore.get?_ofList_eq_none hq.plain fun d hd =>
        ⟨hplain d hd, fun heq => hstored ⟨d, hd, heq⟩⟩
    have hapart : ∀ d ∈ documents, FileTree.Apart q d.1 := fun d hd =>
      ⟨fun heq => hstored ⟨d, hd, heq⟩, hq.apart d hd⟩
    obtain ⟨fault, hfind, hkind⟩ := hholds.exists_find_eq_error hq.plain hapart
    refine .inr ⟨fault, hget, ?_, ?_, hkind⟩
    · unfold FileTree.exists?
      rw [hfind]
    · unfold FileTree.readFile
      rw [hfind]
      rfl

/-- Documents in memory and in files give the same answers about a path beside them. -/
theorem documents_alikeAt (hplain : ∀ d ∈ documents, d.1.IsPlain)
    (hdistinct : documents.Pairwise fun d e => d.1 ≠ e.1) (hholds : t.Holds documents) {q : Path}
    (hq : Beside documents q) :
    Documents.AlikeAt q (MemoryStore.ofList documents).documents (Files.documents t) := by
  rcases found_or_missing hplain hdistinct hholds hq with
    ⟨content, hget, hthere, hread⟩ | ⟨fault, hget, hthere, hread, hkind⟩
  · refine ⟨?_, ?_⟩
    · simp [MemoryStore.documents, Files.documents, hget, hthere]
    · simp only [MemoryStore.documents, Files.documents, hget, hread]
      exact .ok content
  · refine ⟨?_, ?_⟩
    · simp [MemoryStore.documents, Files.documents, hget, hthere]
    · simp only [MemoryStore.documents, Files.documents, hget, hread]
      refine .error ⟨rfl, fun htakes => ?_⟩
      rw [hkind htakes]
      rfl

/-- Documents at plain paths of which none leads through another answer the same in memory and as the
files of a folder without links.  Each is read back from both stores.  About every path beside them there
is one value from both stores, or an error of one kind from both; the errors agree on whether the path
was there if the system takes it.  So both compile a template to the same text, or fail with one kind of
error. -/
theorem memory_alike_files (hplain : ∀ d ∈ documents, d.1.IsPlain)
    (hapart : documents.Pairwise fun d e => FileTree.Apart d.1 e.1) (hholds : t.Holds documents) :
    let memory := (MemoryStore.ofList documents).documents
    let files := Files.documents t
    (∀ d ∈ documents, FileTree.Takes d.1 →
      memory.read d.1 = .ok d.2 ∧ files.read d.1 = .ok d.2) ∧
    (∀ q, Beside documents q →
      memory.isThere q = files.isThere q ∧
      Alike (StoreError.AlikeAt q) (memory.read q) (files.read q) ∧
      Alike (StoreError.AlikeAt q) (memory.readJson q).result (files.readJson q).result ∧
      Alike (CompileError.AlikeAt q) (splitDocument memory q).result (splitDocument files q).result) ∧
    ∀ options : CompileOptions,
      (∀ q, options.template = .path q ∨ options.data = some (.path q) → Beside documents q) →
      Alike CompileError.SameKind (compile memory options).result
        (compile files options).result := by
  intro memory files
  have hdistinct : documents.Pairwise fun d e => d.1 ≠ e.1 := hapart.imp fun h => h.1
  have halike : ∀ q, Beside documents q → Documents.AlikeAt q memory files :=
    fun q hq => documents_alikeAt hplain hdistinct hholds hq
  refine ⟨fun d hd htakes => ?_, fun q hq => ?_, fun options hpaths => ?_⟩
  · obtain ⟨hget, -, hread⟩ := found_of_mem hplain hdistinct hholds hd htakes
    simp [memory, files, MemoryStore.documents, Files.documents, Files.atPath, hget, hread]
  · have h := halike q hq
    exact ⟨h.isThere, h.read, h.readJson, h.splitDocument⟩
  · exact Documents.AlikeAt.compile fun q hq => halike q (hpaths q hq)

/-- A template below two folders and its data beside it. -/
theorem memory_alike_files_nested :
    let p : Path := ['a', '/', 'b', '/', 't']
    let q : Path := ['a', '/', 'd', '.', 'j', 's', 'o', 'n']
    let documents : List (Path × Bytes) :=
      [(p, [0x7b, 0x7b, 0x78, 0x7d, 0x7d]), (q, [0x7b, 0x22, 0x78, 0x22, 0x3a, 0x22, 0x79, 0x22, 0x7d])]
    let t := FileTree.holding [['h']] documents
    let options : CompileOptions := ⟨.path p, some (.path q), none, none, .default⟩
    t.Holds documents ∧ Beside documents p ∧ Beside documents q ∧
      (compile (Files.documents t) options).result = .ok ['y'] := by
  intro p q documents t options
  have hplain : ∀ d ∈ documents, d.1.IsPlain := by decide
  have hapart : documents.Pairwise fun d e => FileTree.Apart d.1 e.1 := by decide
  have hholds : t.Holds documents := (FileTree.holds_holding [['h']] hapart).1
  have hp : Beside documents p := ⟨by decide, by decide, fun _ _ _ => ⟨rfl, by decide⟩⟩
  have hq : Beside documents q := ⟨by decide, by decide, fun _ _ _ => ⟨rfl, by decide⟩⟩
  refine ⟨hholds, hp, hq, ?_⟩
  have hcompile := (memory_alike_files hplain hapart hholds).2.2 options (by
    rintro r (hr | hr)
    · obtain rfl : p = r := Template.TemplateSource.path.inj hr
      exact hp
    · obtain rfl : q = r := Template.DataSource.path.inj (Option.some.inj hr)
      exact hq)
  have hmemory : (compile (MemoryStore.ofList documents).documents options).result = .ok ['y'] := by
    with_unfolding_all rfl
  rw [hmemory] at hcompile
  generalize (compile (Files.documents t) options).result = output at hcompile ⊢
  cases hcompile
  rfl

/-! ## Beyond the limits of the system -/

/-- A document under a path that the system does not take is there in memory only. -/
theorem isThere_of_checkPath {p : Path} {fault : SystemFault}
    (h : FileTree.checkPath p = .error fault) (content : Bytes) (t : FileTree) :
    (MemoryStore.ofList [(p, content)]).documents.isThere p = true ∧
      (Files.documents t).isThere p = false := by
  constructor
  · have hget : (MemoryStore.ofList [(p, content)]).get? p = some content :=
      MemoryStore.get?_insert_of_components_eq (s := .empty) content rfl
    simp [MemoryStore.documents, hget]
  · show t.exists? p = false
    unfold FileTree.exists?
    rw [FileTree.find_eq, h]
    rfl

/-- Of a plain path with a name that is too long memory says that nothing is there, while the folder refuses
it; and a document whose path is too long as a whole is there in memory only. -/
theorem memory_unlike_files_beyond_limits :
    let documents : List (Path × Bytes) := [(['a'], [])]
    let t := FileTree.holding [] documents
    let q : Path := List.replicate 256 'b'
    let p : Path := Text.joinWith ['/'] (List.replicate 2049 ['b'])
    (((∀ d ∈ documents, d.1.IsPlain) ∧
        (documents.Pairwise fun d e => FileTree.Apart d.1 e.1) ∧ t.Holds documents ∧
        q.IsPlain ∧ ∀ d ∈ documents, ¬ Text.Extends '/' q d.1 ∧ ¬ Text.Extends '/' d.1 q) ∧
      ¬ Alike (fun e e' => e.kind = e'.kind ∧ e.isNotFound = e'.isNotFound)
        ((MemoryStore.ofList documents).documents.read q) ((Files.documents t).read q)) ∧
    p.IsPlain ∧ (FileTree.holding [] [(p, [])]).Holds [(p, [])] ∧
      (MemoryStore.ofList [(p, [])]).documents.isThere p = true ∧
      (Files.documents (FileTree.holding [] [(p, [])])).isThere p = false := by
  intro documents t q p
  constructor
  · have hapart : documents.Pairwise fun d e => FileTree.Apart d.1 e.1 := by decide
    have hholds : t.Holds documents := (FileTree.holds_holding [] hapart).1
    have hplain : q.IsPlain := by decide +kernel
    have hbeside : ∀ d ∈ documents, ¬ Text.Extends '/' q d.1 ∧ ¬ Text.Extends '/' d.1 q := by
      decide +kernel
    refine ⟨⟨by decide, hapart, hholds, hplain, hbeside⟩, fun halike => ?_⟩
    have hmemory : (MemoryStore.ofList documents).documents.read q =
        .error (.access q .noSuchDocument) := by decide +kernel
    have hfiles : (Files.documents t).read q = .error (.access q (.system .nameTooLong)) := by
      decide +kernel
    rw [hmemory, hfiles] at halike
    cases halike with
    | error h => exact absurd h.2 (by decide)
  · have hcheck : FileTree.checkPath p = .error .nameTooLong := by decide +kernel
    have hplain : p.IsPlain := by decide +kernel
    have hholds : (FileTree.holding [] [(p, [])]).Holds [(p, [])] :=
      (FileTree.holds_holding [] (List.pairwise_singleton _ _)).1
    exact ⟨hplain, hholds, isThere_of_checkPath hcheck [] _⟩

end Stores

end Infill
