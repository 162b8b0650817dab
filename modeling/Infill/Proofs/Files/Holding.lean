import Mathlib.Data.List.Induction
import Infill.Files.Store
import Infill.Proofs.Files.Walk

/-!
# Trees that hold documents

A tree holds some documents if each of them is a file below the working folder, and if nothing else stands
there but the folders that lead to them (`Holds`).  Documents of which none is another's folder can be
put into an empty working folder one after the other (`holds_holding`).

In a tree that holds some documents a plain path is found where it names a document (`Holds.find_of_mem`),
and nowhere else (`Holds.exists_find_eq_error`), unless it leads to a folder or through a file.
-/

set_option autoImplicit false

namespace Infill.FileTree

/-- The documents stand below the working folder as files, and nothing else does but the folders that lead
to them; in particular no link. -/
structure Holds (t : FileTree) (documents : List (Path × Bytes)) : Prop where
  workingFolder : t.isFolderAt t.workingFolder = true
  files : ∀ d ∈ documents, t.entryAt? (t.workingFolder ++ Text.splitOn '/' d.1) = some (.file d.2)
  folders : ∀ d ∈ documents, ∀ front back, Text.splitOn '/' d.1 = front ++ back → front ≠ [] →
    back ≠ [] → t.entryAt? (t.workingFolder ++ front) = some .folder
  nothingElse : ∀ names, names ≠ [] → (∀ d ∈ documents, ¬ names <+: Text.splitOn '/' d.1) →
    t.entryAt? (t.workingFolder ++ names) = none

/-- Neither of two paths is the other or leads through it. -/
def Apart (p q : Path) : Prop := p ≠ q ∧ ¬ Text.Extends '/' p q ∧ ¬ Text.Extends '/' q p

instance (p q : Path) : Decidable (Apart p q) := inferInstanceAs (Decidable (_ ∧ _ ∧ _))

/-- A tree in which some documents stand in the working folder. -/
def holding (folder : Location) (documents : List (Path × Bytes)) : FileTree :=
  documents.foldl (fun t (p, content) =>
    t.place (folder ++ Text.splitOn '/' p) (.file content)) (ofWorkingFolder folder)

/-! ## Putting documents into a tree -/

/-- Where folders are put they stand, and all else stays. -/
theorem entryAt?_foldl_put_folder (t : FileTree) (locations : List Location) (l : Location) :
    (locations.foldl (fun t m => t.put m .folder) t).entryAt? l =
      if l ∈ locations then some .folder else t.entryAt? l := by
  induction locations generalizing t with
  | nil => simp
  | cons m locations ih =>
    rw [List.foldl_cons, ih]
    by_cases hmem : l ∈ locations
    · simp [hmem]
    · by_cases hl : l = m
      · subst hl
        by_cases hroot : l = []
        · simp [hroot, entryAt?]
        · simp [hmem, entryAt?_put_self hroot]
      · simp [hmem, hl, entryAt?_put_of_ne hl]

/-- Putting folders leaves the working folder. -/
@[simp] theorem workingFolder_foldl_put (t : FileTree) (locations : List Location) :
    (locations.foldl (fun t m => t.put m .folder) t).workingFolder = t.workingFolder := by
  induction locations generalizing t with
  | nil => rfl
  | cons m locations ih => exact ih (t.put m .folder)

/-- Placing an entry leaves the working folder. -/
@[simp] theorem workingFolder_place (t : FileTree) (location : Location) (entry : Entry) :
    (t.place location entry).workingFolder = t.workingFolder :=
  workingFolder_foldl_put t _

/-- A placed entry stands at its location, folders lead to it, and all else is as it was. -/
theorem entryAt?_place (t : FileTree) {location : Location} (hne : location ≠ []) (entry : Entry)
    (l : Location) :
    (t.place location entry).entryAt? l =
      if l = location then some entry
      else if l <+: location then some .folder
      else t.entryAt? l := by
  unfold place
  by_cases hl : l = location
  · rw [if_pos hl, hl, entryAt?_put_self hne]
  · rw [if_neg hl, entryAt?_put_of_ne hl, entryAt?_foldl_put_folder]
    by_cases hroot : l = []
    · simp [hroot, entryAt?]
    · -- The folders on the way are the proper beginnings of the location that are not empty.
      have hmem : l ∈ (List.range (location.length - 1)).map (fun n => location.take (n + 1)) ↔
          l <+: location := by
        rw [List.mem_map]
        constructor
        · rintro ⟨n, -, rfl⟩
          exact List.take_prefix _ _
        · intro hpre
          have hpos : 0 < l.length := List.length_pos_iff.2 hroot
          have hlt : l.length < location.length := by
            rcases Nat.lt_or_ge l.length location.length with hlt | hge
            · exact hlt
            · exact absurd (hpre.eq_of_length_le hge) hl
          refine ⟨l.length - 1, List.mem_range.2 (by omega), ?_⟩
          rw [Nat.sub_add_cancel hpos]
          exact (List.prefix_iff_eq_take.1 hpre).symm
      simp only [hmem]

/-- Among some folders each is found. -/
theorem lookup_map_folder (locations : List Location) (l : Location) :
    Entries.lookup l (locations.map fun m => (m, Entry.folder)) =
      if l ∈ locations then some .folder else none := by
  induction locations with
  | nil => simp [Entries.lookup]
  | cons m locations ih =>
    by_cases hm : m = l
    · simp [Entries.lookup, hm]
    · have hne : ¬ l = m := fun h => hm h.symm
      simp [Entries.lookup, hm, hne, ih]

/-- An empty working folder holds no documents. -/
theorem holds_ofWorkingFolder (folder : Location) : (ofWorkingFolder folder).Holds [] := by
  have hentries : (ofWorkingFolder folder).entries =
      ((List.range folder.length).map fun n => folder.take (n + 1)).map fun l => (l, Entry.folder) := by
    simp [ofWorkingFolder]
  have hworking : (ofWorkingFolder folder).workingFolder = folder := rfl
  refine ⟨?_, by simp, by simp, ?_⟩
  · unfold isFolderAt entryAt?
    rw [hworking, hentries, lookup_map_folder]
    by_cases hroot : folder = []
    · simp [hroot]
    · have hpos : 0 < folder.length := List.length_pos_iff.2 hroot
      have hmem : folder ∈ (List.range folder.length).map fun n => folder.take (n + 1) :=
        List.mem_map.2 ⟨folder.length - 1, List.mem_range.2 (by omega), by
          rw [Nat.sub_add_cancel hpos, List.take_length]⟩
      rw [if_neg hroot, if_pos hmem]
      rfl
  · intro names hne _
    have hlonger : folder ++ names ∉ (List.range folder.length).map fun n => folder.take (n + 1) := by
      intro hmem
      obtain ⟨n, -, htake⟩ := List.mem_map.1 hmem
      have hlen := congrArg List.length htake
      have hpos : 0 < names.length := List.length_pos_iff.2 hne
      rw [List.length_take, List.length_append] at hlen
      omega
    unfold entryAt?
    rw [hworking, hentries, lookup_map_folder, if_neg (by simp [hne]), if_neg hlonger]

/-- A document that is apart from those in a tree can be put beside them. -/
theorem Holds.place {t : FileTree} {documents : List (Path × Bytes)} (h : t.Holds documents) {p : Path}
    (content : Bytes) (hapart : ∀ d ∈ documents, Apart d.1 p) :
    (t.place (t.workingFolder ++ Text.splitOn '/' p) (.file content)).Holds
      (documents ++ [(p, content)]) := by
  have hne : t.workingFolder ++ Text.splitOn '/' p ≠ [] := by simp [Text.splitOn_ne_nil]
  have hentry : ∀ names, (t.place (t.workingFolder ++ Text.splitOn '/' p)
      (.file content)).entryAt? (t.workingFolder ++ names) =
        if names = Text.splitOn '/' p then some (.file content)
        else if names <+: Text.splitOn '/' p then some .folder
        else t.entryAt? (t.workingFolder ++ names) := by
    intro names
    rw [entryAt?_place t hne]
    simp [List.prefix_append_right_inj]
  -- What is on the way to another document is not the new one.
  have hother : ∀ d ∈ documents, ∀ front back, Text.splitOn '/' d.1 = front ++ back →
      front ≠ Text.splitOn '/' p := by
    rintro d hd front back hsplit rfl
    rcases Text.eq_or_extends_of_parts ⟨back, hsplit.symm⟩ with heq | hextends
    · exact (hapart d hd).1 heq.symm
    · exact (hapart d hd).2.2 hextends
  refine ⟨?_, ?_, ?_, ?_⟩
  · have hworking := hentry []
    rw [List.append_nil, if_neg (Text.splitOn_ne_nil '/' p).symm, if_pos List.nil_prefix] at hworking
    simp [isFolderAt, hworking]
  · intro d hd
    rw [workingFolder_place, hentry]
    rcases List.mem_append.1 hd with hd | hd
    · have hpre : ¬ Text.splitOn '/' d.1 <+: Text.splitOn '/' p := by
        intro hpre
        rcases Text.eq_or_extends_of_parts hpre with heq | hextends
        · exact (hapart d hd).1 heq
        · exact (hapart d hd).2.1 hextends
      rw [if_neg (hother d hd _ [] (by simp)), if_neg hpre]
      exact h.files d hd
    · obtain rfl : d = (p, content) := by simpa using hd
      rw [if_pos rfl]
  · intro d hd front back hsplit hfront hback
    rw [workingFolder_place, hentry]
    rcases List.mem_append.1 hd with hd | hd
    · rw [if_neg (hother d hd front back hsplit), h.folders d hd front back hsplit hfront hback]
      simp
    · obtain rfl : d = (p, content) := by simpa using hd
      have hproper : front ≠ Text.splitOn '/' p := by
        rintro rfl
        exact hback (by simpa using hsplit)
      rw [if_neg hproper, if_pos ⟨back, hsplit.symm⟩]
  · intro names hnames hclear
    have hnew : ¬ names <+: Text.splitOn '/' p := hclear (p, content) (by simp)
    have hproper : names ≠ Text.splitOn '/' p := by
      rintro rfl
      exact hnew List.prefix_rfl
    rw [workingFolder_place, hentry, if_neg hproper, if_neg hnew]
    exact h.nothingElse names hnames fun d hd => hclear d (List.mem_append_left _ hd)

/-- Documents that are apart from each other can be held by a tree. -/
theorem holds_holding (folder : Location) {documents : List (Path × Bytes)}
    (hapart : documents.Pairwise fun d e => Apart d.1 e.1) :
    (holding folder documents).Holds documents ∧
      (holding folder documents).workingFolder = folder := by
  induction documents using List.reverseRecOn with
  | nil => exact ⟨holds_ofWorkingFolder folder, rfl⟩
  | append_singleton documents last ih =>
    obtain ⟨hfront, -, hlast⟩ := List.pairwise_append.1 hapart
    obtain ⟨hholds, hworking⟩ := ih hfront
    have hstep : holding folder (documents ++ [last]) =
        (holding folder documents).place (folder ++ Text.splitOn '/' last.1)
          (.file last.2) := by
      simp [holding]
    have hplaced := hholds.place last.2 fun d hd => hlast d hd last (by simp)
    rw [hworking] at hplaced
    rw [hstep]
    exact ⟨hplaced, by rw [workingFolder_place, hworking]⟩

/-! ## Finding documents -/

section Find

variable {t : FileTree} {documents : List (Path × Bytes)}

/-- A document is found under its path. -/
theorem Holds.find_of_mem (h : t.Holds documents) {d : Path × Bytes} (hd : d ∈ documents)
    (hplain : d.1.IsPlain) (htakes : Takes d.1) :
    t.find d.1 = .ok (t.workingFolder ++ Text.splitOn '/' d.1) := by
  refine find_of_isFolderAt hplain htakes ?_ (h.files d hd) (by simp)
  intro front back hsplit hback
  by_cases hfront : front = []
  · rw [hfront, List.append_nil]
    exact h.workingFolder
  · simp [isFolderAt, h.folders d hd front back hsplit hfront hback]

/-- A path that is apart from all documents is not found. -/
theorem Holds.exists_find_eq_error (h : t.Holds documents) {q : Path} (hplain : q.IsPlain)
    (hapart : ∀ d ∈ documents, Apart q d.1) :
    ∃ fault, t.find q = .error fault ∧ (Takes q → fault = .notFound) := by
  refine FileTree.exists_find_eq_error hplain h.workingFolder ?_ ?_
  · intro front back hsplit hfront hback
    by_cases hway : ∃ d ∈ documents, front <+: Text.splitOn '/' d.1
    · obtain ⟨d, hd, more, hmore⟩ := hway
      refine .inl (h.folders d hd front more hmore.symm hfront ?_)
      rintro rfl
      -- The path would lead through the document.
      rw [List.append_nil] at hmore
      exact (hapart d hd).2.2 ⟨back, hback, by rw [hsplit, hmore]⟩
    · exact .inr (h.nothingElse front hfront fun d hd hpre => hway ⟨d, hd, hpre⟩)
  · refine h.nothingElse _ (Text.splitOn_ne_nil '/' q) fun d hd hpre => ?_
    rcases Text.eq_or_extends_of_parts hpre with heq | hextends
    · exact (hapart d hd).1 heq
    · exact (hapart d hd).2.1 hextends

end Find

end Infill.FileTree
