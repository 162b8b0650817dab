import Mathlib.Data.List.Induction
import Mathlib.Data.Set.Card
import Infill.Proofs.Path
import Infill.Store.Memory

/-!
# The history of a store in memory

A store in memory has come about by insertions and removals.  Whatever they were, it knows of each path what
the last of them that was about the path has left there, under whatever spelling the path was given
(`get?_run`), and nothing else: there are as many documents as there are paths at which something is left,
all spellings of a path counting as one (`Sound.encard_components`).
-/

set_option autoImplicit false

namespace Infill.MemoryStore

/-- A change of a store. -/
inductive Change where
  | insert (path : Path) (content : Bytes)
  | remove (path : Path)
  deriving DecidableEq, Repr

namespace Change

/-- The path that a change is about. -/
def path : Change → Path
  | insert path _ => path
  | remove path => path

/-- What a change leaves at its path. -/
def content? : Change → Option Bytes
  | insert _ content => some content
  | remove _ => none

/-- What a change makes of a store. -/
def apply (s : MemoryStore) : Change → MemoryStore
  | insert path content => s.insert path content
  | remove path => (s.take path).2

end Change

/-- The store after some changes, one after the other. -/
def run (s : MemoryStore) (changes : List Change) : MemoryStore := changes.foldl Change.apply s

/-- Of some changes this one is the last about a path, under whatever spelling. -/
def IsLast (p : Path) (changes : List Change) (change : Change) : Prop :=
  ∃ before after, changes = before ++ change :: after ∧ change.path.SameAs p ∧
    ∀ later ∈ after, ¬ later.path.SameAs p

/-- A change more is made last. -/
theorem run_concat (s : MemoryStore) (changes : List Change) (last : Change) :
    s.run (changes ++ [last]) = last.apply (s.run changes) := by
  simp [run]

/-- A store of some documents is made by inserting them. -/
theorem ofList_eq_run (documents : List (Path × Bytes)) :
    ofList documents = empty.run (documents.map fun d => .insert d.1 d.2) := by
  unfold ofList run
  rw [List.foldl_map]
  rfl

/-! ## The last change -/

section Last

variable {p : Path} {changes : List Change} {change last : Change}

/-- A change at a path is the last one there if no other follows. -/
theorem isLast_concat_of_sameAs (h : last.path.SameAs p) :
    IsLast p (changes ++ [last]) change ↔ change = last := by
  constructor
  · rintro ⟨before, after, hsplit, -, hafter⟩
    rcases List.eq_nil_or_concat' after with rfl | ⟨front, later, rfl⟩
    · have hends := (List.append_inj' hsplit rfl).2
      simpa using hends.symm
    · have hends : changes ++ [last] = (before ++ change :: front) ++ [later] := by simpa using hsplit
      obtain rfl : last = later := by simpa using (List.append_inj' hends rfl).2
      exact absurd h (hafter last (by simp))
  · rintro rfl
    exact ⟨changes, [], rfl, h, by simp⟩

/-- A change elsewhere is not the last one at a path. -/
theorem isLast_concat_of_not_sameAs (h : ¬ last.path.SameAs p) :
    IsLast p (changes ++ [last]) change ↔ IsLast p changes change := by
  constructor
  · rintro ⟨before, after, hsplit, hsame, hafter⟩
    rcases List.eq_nil_or_concat' after with rfl | ⟨front, later, rfl⟩
    · obtain rfl : last = change := by simpa using (List.append_inj' hsplit rfl).2
      exact absurd hsame h
    · have hends : changes ++ [last] = (before ++ change :: front) ++ [later] := by simpa using hsplit
      obtain ⟨rfl, -⟩ := List.append_inj' hends rfl
      exact ⟨before, front, rfl, hsame, fun c hc => hafter c (List.mem_append_left _ hc)⟩
  · rintro ⟨before, after, rfl, hsame, hafter⟩
    refine ⟨before, after ++ [last], by simp, hsame, fun c hc => ?_⟩
    rcases List.mem_append.1 hc with hc | hc
    · exact hafter c hc
    · obtain rfl : c = last := by simpa using hc
      exact h

/-- Without changes there is no last one. -/
theorem not_isLast_nil : ¬ IsLast p [] change := by
  rintro ⟨before, after, hsplit, -⟩
  simp at hsplit

end Last

/-! ## What is found -/

/-- At its own path a change leaves its content. -/
theorem get?_apply_of_sameAs (s : MemoryStore) {p : Path} {change : Change} (h : change.path.SameAs p) :
    (change.apply s).get? p = change.content? := by
  cases change with
  | insert path content => exact get?_insert_of_components_eq content h.symm
  | remove path => exact get?_remove_of_components_eq h.symm

/-- A change leaves all other paths alone. -/
theorem get?_apply_of_not_sameAs (s : MemoryStore) {p : Path} {change : Change}
    (h : ¬ change.path.SameAs p) : (change.apply s).get? p = s.get? p := by
  have hne : p.components ≠ change.path.components := fun heq => h heq.symm
  cases change with
  | insert path content => exact get?_insert_of_components_ne content hne
  | remove path => exact get?_remove_of_components_ne hne

/-- The last change about a path has left there what is found. -/
theorem get?_run {p : Path} {changes : List Change} {content : Bytes} :
    (empty.run changes).get? p = some content ↔ ∃ q, IsLast p changes (.insert q content) := by
  induction changes using List.reverseRecOn with
  | nil =>
    have hnone : ¬ ∃ q, IsLast p [] (.insert q content) := fun ⟨_, h⟩ => not_isLast_nil h
    simp [hnone, run, empty, get?, Entries.lookup]
  | append_singleton changes last ih =>
    rw [run_concat]
    by_cases hsame : last.path.SameAs p
    · simp only [get?_apply_of_sameAs _ hsame, isLast_concat_of_sameAs hsame]
      cases last with
      | insert path stored => simp [Change.content?, eq_comm]
      | remove path => simp [Change.content?]
    · simp only [get?_apply_of_not_sameAs _ hsame, isLast_concat_of_not_sameAs hsame]
      exact ih

/-! ## How many there are -/

/-- No key is there twice, and each belongs to a path. -/
structure Sound (s : MemoryStore) : Prop where
  distinct : (s.entries.map Prod.fst).Nodup
  ofPath : ∀ key ∈ s.entries.map Prod.fst, ∃ p : Path, p.components = key

namespace Sound

variable {s : MemoryStore}

/-- Every change leaves the store sound. -/
theorem apply (h : Sound s) (change : Change) : Sound (change.apply s) := by
  cases change with
  | insert path content =>
    refine ⟨Entries.nodup_keys_put path.components content h.distinct, fun key hkey => ?_⟩
    rcases Entries.mem_keys_put.1 hkey with rfl | hkey
    · exact ⟨path, rfl⟩
    · exact h.ofPath key hkey
  | remove path =>
    have hkeys : List.Sublist (((Change.remove path).apply s).entries.map Prod.fst)
        (s.entries.map Prod.fst) :=
      (Entries.sublist_erase path.components s.entries).map Prod.fst
    exact ⟨h.distinct.sublist hkeys, fun key hkey => h.ofPath key (hkeys.subset hkey)⟩

/-- So do changes one after the other. -/
theorem run (h : Sound s) (changes : List Change) : Sound (s.run changes) := by
  induction changes generalizing s with
  | nil => exact h
  | cons change changes ih => exact ih (h.apply change)

/-- There are as many documents as there are paths at which one is, spellings of one path counted once. -/
theorem encard_components (h : Sound s) :
    (Path.components '' {p | s.documents.isThere p = true}).encard = s.size := by
  have hkeys : Path.components '' {p | s.documents.isThere p = true} =
      ((s.entries.map Prod.fst).toFinset : Set (List Path.Component)) := by
    ext key
    rw [List.coe_toFinset]
    constructor
    · rintro ⟨p, hp, rfl⟩
      exact Entries.isSome_lookup_iff.1 hp
    · intro hkey
      obtain ⟨p, rfl⟩ := h.ofPath key hkey
      exact ⟨p, Entries.isSome_lookup_iff.2 hkey, rfl⟩
  rw [hkeys, Set.encard_coe_eq_coe_finsetCard, List.toFinset_card_of_nodup h.distinct, List.length_map]
  rfl

end Sound

/-- The empty store is sound. -/
theorem sound_empty : Sound empty := ⟨.nil, by simp [empty]⟩

/-! ## Whole runs -/

/-- A document that is there is read. -/
theorem read_of_get?_eq_some {s : MemoryStore} {p : Path} {content : Bytes} (h : s.get? p = some content) :
    s.documents.read p = .ok content := by
  unfold documents
  simp only [h]

/-- A document that is not there is missed by its path. -/
theorem read_of_get?_eq_none {s : MemoryStore} {p : Path} (h : s.get? p = none) :
    s.documents.read p = .error (.access p .noSuchDocument) := by
  unfold documents
  simp only [h]

/-- Removing the document at a path gives what reading it would have given. -/
theorem take_fst (s : MemoryStore) (p : Path) : (s.take p).1 = (s.documents.read p).toOption := by
  show s.get? p = _
  cases hget : s.get? p with
  | none => rw [read_of_get?_eq_none hget]; rfl
  | some content => rw [read_of_get?_eq_some hget]; rfl

/-- What is known of a path is what is found there. -/
theorem documents_congr {s u : MemoryStore} {p : Path} (h : u.get? p = s.get? p) :
    u.documents.isThere p = s.documents.isThere p ∧ u.documents.read p = s.documents.read p := by
  unfold documents
  simp only [h, true_and]

/-- A path is there if the last change about it, documents that were there from the start included, has put a
document there; then this is what is read, and otherwise the path as it was given is said not to be found.
Removing a document gives what reading it would have given, and leaves the other paths as they were.  There
are as many documents as there are paths.  Spellings of one path are one path in all of this: slashes and
parts `.` behind its beginning do not count, but a slash, a `.` or a `..` in front does, and so does a `..`
anywhere. -/
theorem run_knows_last_change (documents : List (Path × Bytes)) (changes : List Change) :
    let history := documents.map (fun d => Change.insert d.1 d.2) ++ changes
    let s := (ofList documents).run changes
    (∀ p : Path,
      (s.documents.isThere p = true ↔ ∃ q content, IsLast p history (.insert q content)) ∧
      (∀ content, s.documents.read p = .ok content ↔ ∃ q, IsLast p history (.insert q content)) ∧
      (s.documents.isThere p = false → s.documents.read p = .error (.access p .noSuchDocument) ∧
        (StoreError.access p .noSuchDocument).isNotFound = true) ∧
      (s.take p).1 = (s.documents.read p).toOption ∧
      (s.take p).2.documents.isThere p = false ∧
      ∀ q : Path, ¬ q.SameAs p → (s.take p).2.documents.isThere q = s.documents.isThere q ∧
        (s.take p).2.documents.read q = s.documents.read q) ∧
    (Path.components '' {p | s.documents.isThere p = true}).encard = s.size ∧
    (s.isEmpty = true ↔ s.size = 0) ∧
    (∀ p q : Path, (p ++ '/' :: '/' :: q).SameAs (p ++ '/' :: q) ∧
      (p ++ '/' :: '.' :: '/' :: q).SameAs (p ++ '/' :: q)) ∧
    (∀ p : Path, p ≠ [] → (p ++ ['/']).SameAs p ∧
      Path.components (p ++ ['/', '.', '.']) = p.components ++ [.parent]) ∧
    ∀ p : Path, p.IsPlain → Path.components ('/' :: p) = .root :: p.components ∧
      Path.components ('.' :: '/' :: p) = .current :: p.components ∧
      Path.components ('.' :: '.' :: '/' :: p) = .parent :: p.components := by
  intro history s
  have hrun : s = empty.run history := by
    simp only [s, history, ofList_eq_run, run, List.foldl_append]
  have hget : ∀ p content, s.get? p = some content ↔ ∃ q, IsLast p history (.insert q content) := by
    intro p content
    rw [hrun]
    exact get?_run
  refine ⟨fun p => ⟨?_, ?_, ?_, take_fst s p, ?_, ?_⟩, ?_, ?_, ?_, ?_, ?_⟩
  · show (s.get? p).isSome = true ↔ _
    rw [Option.isSome_iff_exists, exists_comm]
    exact exists_congr fun content => hget p content
  · intro content
    rw [← hget]
    cases hfound : s.get? p with
    | none => simp [read_of_get?_eq_none hfound]
    | some stored => simp [read_of_get?_eq_some hfound]
  · intro hthere
    have hnone : s.get? p = none := Option.isSome_eq_false_iff.1 hthere |> Option.isNone_iff_eq_none.1
    exact ⟨read_of_get?_eq_none hnone, rfl⟩
  · show ((s.remove p).get? p).isSome = false
    rw [get?_remove_of_components_eq rfl]
    rfl
  · intro q hq
    exact documents_congr (get?_remove_of_components_ne hq)
  · rw [hrun]
    exact (sound_empty.run history).encard_components
  · simp [isEmpty, size]
  · intro p q
    exact ⟨Path.sameAs_append_slash p (Path.behindFront_slash q),
      Path.sameAs_append_slash p (Path.behindFront_dot_slash q)⟩
  · intro p hp
    exact ⟨Path.sameAs_append_singleton hp, Path.components_append_dots hp⟩
  · intro p hp
    rw [Path.components_slash, Path.components_dot_slash, Path.components_dots_slash,
      hp.components_eq_behindFront]
    exact ⟨rfl, rfl, rfl⟩

end Infill.MemoryStore
