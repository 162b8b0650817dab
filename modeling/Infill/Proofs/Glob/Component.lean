import Infill.Proofs.Glob.InFolder
import Infill.Proofs.Glob.Spelling
import Infill.Proofs.Keyed

/-!
# Files that one component finds

A pattern of one component, behind the path of a folder, finds the names of the folder that it matches.  It may find
more: the folder itself, the steps `.` and `..`, links that lead nowhere, folders.  None of these is a file.  So the
files among what is found are the files of the folder whose names the pattern matches, in alphabetical order
(`findsFiles_of_search`), whether the pattern has wildcards or not, and whether there is such a folder or not.  No
folder is read but this one, so that such a search does not fail.
-/

set_option autoImplicit false

namespace Infill

/-! ## Files of a folder -/

namespace FileTree

variable {t : FileTree} {folder : Path} {l : Location} {n : Text}

/-- The names of the files of a folder, links followed, in alphabetical order. -/
def fileNames (t : FileTree) (folder : Path) : List Text :=
  match t.find folder with
  | .ok l => (t.namesIn l).filter fun n => t.isFile (folder.join n)
  | .error _ => []

/-- The files of a folder that is found are those of its entries that are files. -/
theorem fileNames_of_find (hfind : t.find folder = .ok l) :
    t.fileNames folder = (t.namesIn l).filter fun n => t.isFile (folder.join n) := by
  unfold fileNames
  rw [hfind]

/-- The files of a folder are its entries that are files. -/
theorem mem_fileNames_iff : n ∈ t.fileNames folder ↔
    (∃ l, t.find folder = .ok l ∧ n ∈ t.namesIn l) ∧ t.isFile (folder.join n) = true := by
  unfold fileNames
  cases t.find folder with
  | error fault => simp
  | ok l => simp

/-- The names of files in a folder are names of entries, and there is such a folder. -/
theorem IsTree.of_mem_fileNames (h : t.IsTree) (hn : n ∈ t.fileNames folder) :
    IsEntryName n ∧ t.isFile (folder.join n) = true := by
  obtain ⟨⟨l, -, hname⟩, hfile⟩ := mem_fileNames_iff.1 hn
  obtain ⟨entry, hentry⟩ := mem_namesIn_iff.1 hname
  exact ⟨h.isEntryName hentry, hfile⟩

/-- The names in a folder stand in order, each once. -/
theorem pairwise_namesIn (h : (t.entries.map Prod.fst).Nodup) (l : Location) : (t.namesIn l).Pairwise (· < ·) := by
  have hle : (t.namesIn l).Pairwise fun a b => ¬ b < a := Keyed.pairwise_mergeSort id _
  refine (hle.and (nodup_namesIn h l)).imp ?_
  rintro a b ⟨hab, hne⟩
  exact Keyed.lt_of_ne_of_not_lt hne.symm hab

/-- The files of a folder are listed in alphabetical order. -/
theorem IsTree.pairwise_fileNames (h : t.IsTree) (folder : Path) : (t.fileNames folder).Pairwise (· < ·) := by
  unfold fileNames
  cases t.find folder with
  | error fault => exact .nil
  | ok l => exact (pairwise_namesIn h.nodup l).filter _

/-- Each file of a folder is listed once. -/
theorem IsTree.nodup_fileNames (h : t.IsTree) (folder : Path) : (t.fileNames folder).Nodup := by
  refine (h.pairwise_fileNames folder).imp ?_
  rintro a _ hlt rfl
  exact List.lt_irrefl a hlt

/-- Behind the path of a folder a part leads to a file only if it is the name of an entry of the folder. -/
theorem IsTree.of_isFile_join (htree : t.IsTree) (hne : folder ≠ []) (hn : '/' ∉ n)
    (hfile : t.isFile (folder.join n) = true) :
    Path.IsName n ∧ ∃ l, t.find folder = .ok l ∧ t.isFolderAt l = true ∧ n ∈ t.namesIn l := by
  have hrelative := Glob.isAbsolute_of_not_mem hn
  obtain ⟨m, content, hfind, hcontent⟩ := isFile_iff.1 hfile
  obtain ⟨htaken, left, hwalk⟩ := find_eq_ok_iff.1 hfind
  rw [baseOf_join _ hne hrelative, Path.splitOn_join hne hrelative, Text.splitOn_of_not_mem hn] at hwalk
  obtain ⟨l, rest, hstem, hfolder, hlast⟩ :=
    exists_walk_of_append (fun hnil => absurd hnil (List.cons_ne_nil n [])) hwalk
  have hfound : t.find folder = .ok l := by
    refine (find_folder_iff hfolder).2 ⟨checkPath_of_join hne hrelative htaken, rest, ?_⟩
    rw [← Path.moves_stem]
    exact walk_moves hstem
  have hname : Path.IsName n := by
    refine Decidable.of_not_not fun hnot => ?_
    obtain ⟨l', hl', hwalk'⟩ := exists_walk_last htree hfolder (fun hname => absurd hname hnot) rest 0
    rw [List.replicate_zero, hlast] at hwalk'
    obtain ⟨rfl, -⟩ := Prod.mk.inj (Except.ok.inj hwalk')
    rw [isFolderAt_iff, hcontent] at hl'
    cases hl'
  exact ⟨hname, l, hfound, hfolder, mem_namesIn_iff.2 (exists_entry_of_walk_cons hname hlast).2⟩

end FileTree

namespace Glob

variable {t : FileTree} {folder scope path : Path} {part n : Text} {p : Pattern} {l : Location}

/-! ## One component -/

/-- A text without wildcards matches itself only. -/
theorem matches_map_char_iff {t : Text} : Pattern.matches (n.map .char) t = true ↔ t = n := by
  induction n generalizing t with
  | nil => simp [Pattern.matches]
  | cons c n ih =>
    cases t with
    | nil => simp [Pattern.matches]
    | cons d t => simp [Pattern.matches, Element.admits, ih]

/-- From where a folder leads one component fails on no path. -/
theorem not_error_mem_follow (hany : p.isAnyFolders = false) {rounds : Nat} {e : SearchError} :
    .error e ∉ follow t false rounds (.ofPath t (arrival folder)) [p] := by
  intro h
  cases rounds with
  | zero => cases h
  | succ rounds =>
    rcases mem_follow_succ h with ⟨fault, -, hseen, hopen⟩ | ⟨n, next, rest, -, -, hitem, -, hrest⟩
    · obtain ⟨l, hfind, hl⟩ := FileTree.isFolder_iff.1 hseen
      cases (FileTree.openFolder_of_find hfind hl).symm.trans hopen
    · obtain rfl := hrest hany
      rcases hitem with ⟨hends, -⟩ | hitem
      · cases hends
      · cases rounds <;> cases hitem

/-- A search meets paths only, and among them the files are the files of a folder whose names a pattern matches, in
alphabetical order. -/
def FindsFiles (t : FileTree) (folder : Path) (p : Pattern) (found : List (Except SearchError Path)) : Prop :=
  ∃ paths : List Path, found = paths.map .ok ∧
    paths.filter t.isFile = ((t.fileNames folder).filter p.matches).map folder.join

section Found

variable (htree : t.IsTree) (hspelled : IsSpelledOut folder) (hslash : '/' ∉ part) (hparse : Pattern.parse part = .ok p)
  (hany : p.isAnyFolders = false)
include htree hspelled hslash hparse hany

/-- What one component finds from where a folder leads is a part behind the path of the folder. -/
theorem exists_join_of_mem_follow {rounds : Nat}
    (h : .ok path ∈ follow t false rounds (.ofPath t (arrival folder)) [p]) : ∃ n, '/' ∉ n ∧ path = folder.join n := by
  cases rounds with
  | zero => cases h
  | succ rounds =>
    rcases mem_follow_succ h with ⟨fault, hfails, -⟩ | ⟨n, next, rest, hallows, hleads, hitem, -, hrest⟩
    · cases hfails
    · obtain rfl := hrest hany
      have hn := not_mem_of_allows htree hslash hparse hallows
      rcases hitem with ⟨hends, -⟩ | hitem
      · obtain rfl := Except.ok.inj hends
        exact ⟨n, hn, hspelled.next_arrival hn hleads.path_eq⟩
      · cases rounds <;> cases hitem

omit hany in
/-- Among what a component without wildcards finds, the files are those whose names it matches. -/
theorem findsFiles_of_literal (hp : p.literal? = some n) (rounds : Nat) :
    FindsFiles t folder p (follow t false (rounds + 1) (.ofPath t (arrival folder)) [p]) := by
  have hn : '/' ∉ n := not_mem_of_allows htree hslash hparse (.inl hp)
  have hmatches : ∀ m, p.matches m = decide (m = n) := by
    intro m
    rw [Bool.eq_iff_iff, decide_eq_true_iff, eq_map_char_of_literal? hp]
    exact matches_map_char_iff
  have hjoin : below (arrival folder) n = folder.join n := hspelled.next_arrival hn (.inl rfl)
  refine ⟨if goesOn t (.ofPath t (arrival folder)) n then [folder.join n] else [], ?_, ?_⟩
  · rw [follow_of_literal hp]
    unfold Place.ofPath
    dsimp only
    rw [hjoin]
    split_ifs <;> rfl
  rw [List.filter_congr fun m _ => hmatches m, List.filter_eq]
  by_cases hfile : t.isFile (folder.join n) = true
  · obtain ⟨⟨-, hcurrent, hparent⟩, l, hfind, -, hname⟩ := htree.of_isFile_join hspelled.ne_nil hn hfile
    have hmem : n ∈ t.fileNames folder := FileTree.mem_fileNames_iff.2 ⟨⟨l, hfind, hname⟩, hfile⟩
    have hgoes : goesOn t (.ofPath t (arrival folder)) n = true := by
      obtain ⟨m, content, hfound, -⟩ := FileTree.isFile_iff.1 hfile
      unfold goesOn isStep FileTree.exists? Place.ofPath
      dsimp only
      rw [hjoin, hfound]
      simp [hcurrent, hparent]
    have honce : (t.fileNames folder).count n = 1 := by
      rw [(htree.nodup_fileNames folder).count, if_pos hmem]
    rw [if_pos hgoes, honce]
    simp [hfile]
  · have hnone : (t.fileNames folder).count n = 0 :=
      List.count_eq_zero.2 fun hmem => hfile (htree.of_mem_fileNames hmem).2
    rw [hnone]
    split_ifs
    · simp [hfile]
    · rfl

/-- Among what a component with wildcards finds in a folder, they are as well. -/
theorem findsFiles_of_wildcards (hliteral : IsLiteral folder) (hfind : t.find folder = .ok l)
    (hfolder : t.isFolderAt l = true) (hp : p.literal? = none) (rounds : Nat) :
    FindsFiles t folder p (follow t false (rounds + 1) (.ofPath t (arrival folder)) [p]) := by
  have harrival := find_arrival hliteral hfind hfolder hspelled.noGap
  have hsteps : ((stepsMatched p).map (arrival folder).join).filter t.isFile = [] := by
    rw [List.filter_eq_nil_iff]
    intro path hpath hfile
    obtain ⟨step, hstep, rfl⟩ := List.mem_map.1 hpath
    have hn : '/' ∉ step := not_mem_of_allows htree hslash hparse (.inr (.inl hstep))
    rw [hspelled.next_arrival hn (.inr rfl)] at hfile
    obtain ⟨⟨-, hcurrent, hparent⟩, -⟩ := htree.of_isFile_join hspelled.ne_nil hn hfile
    exact (eq_of_mem_stepsMatched hstep).elim hparent hcurrent
  have hnames : ∀ n ∈ (t.namesIn l).filter p.matches, below (arrival folder) n = folder.join n := fun n hn =>
    hspelled.next_arrival (isEntryName_of_mem_namesIn htree (List.mem_of_mem_filter hn)).noSlash (.inl rfl)
  refine ⟨_, follow_of_not_anyFolders hp hany harrival hfolder rounds, ?_⟩
  rw [List.filter_append, hsteps, List.nil_append, List.map_congr_left hnames, List.filter_map,
    FileTree.fileNames_of_find hfind, List.filter_filter, List.filter_filter]
  simp only [Function.comp_def, Bool.and_comm]

end Found

/-! ## A search for one component -/

section Search

variable {found : List (Except SearchError Path)}

/-- Where no path is a file, and no name of a file is matched, the files are those that are matched. -/
theorem findsFiles_of_no_file (hfound : ∀ item ∈ found, ∃ path, item = .ok path ∧ t.isFile path = false)
    (hnames : ∀ n ∈ t.fileNames folder, p.matches n = false) : FindsFiles t folder p found := by
  obtain ⟨paths, rfl⟩ := Result.exists_eq_map_ok fun e he => by
    obtain ⟨path, hpath, -⟩ := hfound _ he
    cases hpath
  refine ⟨paths, rfl, ?_⟩
  rw [List.filter_eq_nil_iff.2 fun n hn => Bool.eq_false_iff.1 (hnames n hn), List.map_nil, List.filter_eq_nil_iff]
  intro path hpath
  obtain ⟨other, hother, hno⟩ := hfound _ (List.mem_map_of_mem hpath)
  obtain rfl := Except.ok.inj hother
  exact Bool.eq_false_iff.1 hno

/-- The empty pattern searches for the path of the folder itself, with a slash behind it, and no file has that. -/
theorem findsFiles_of_empty (htree : t.IsTree) (hliteral : IsLiteral folder) (hne : folder ≠ [])
    (hsearch : search t (folder.join []) = .ok found) : FindsFiles t folder [] found := by
  have hend : ((folder.join []).getLast? == some '/') = true := by
    rw [Path.join_eq_stem_append hne rfl, List.getLast?_concat]
    rfl
  apply findsFiles_of_no_file
  · intro item hitem
    obtain ⟨rest, patterns, hbegins, -, hpatterns, rfl⟩ := of_search_join hne hliteral rfl hsearch
    have hparts : ∀ n ∈ rest, IsLiteral n := by
      intro n hn
      obtain rfl := Text.eq_of_mem_splitOn List.not_mem_nil (hbegins.subset hn)
      exact fun c hc => absurd hc List.not_mem_nil
    rw [mapM_parse_literal hparts] at hpatterns
    obtain rfl := Except.ok.inj hpatterns
    rw [hend] at hitem
    cases item with
    | ok path => exact ⟨path, rfl, isFile_of_mem_follow htree hitem⟩
    | error e =>
      rw [← List.map_append] at hitem
      exact absurd hitem not_error_mem_follow_of_literals
  · intro n hn
    exact List.isEmpty_eq_false_iff.2 (htree.of_mem_fileNames hn).1.isName.1

/-- A search behind a folder, for a pattern of one component, fails on no path; and among what it finds, the files are
the files of this folder whose names the pattern matches, in alphabetical order. -/
theorem findsFiles_of_search (htree : t.IsTree) (hliteral : IsLiteral folder) (hspelled : IsSpelledOut folder)
    (hslash : '/' ∉ part) (hstars : part ≠ ['*', '*']) (hparse : Pattern.parse part = .ok p)
    (hsearch : search t (folder.join part) = .ok found) : FindsFiles t folder p found := by
  have hne := hspelled.ne_nil
  have hany : p.isAnyFolders = false := by
    have hmem := not_mem_anyFolders_of_parse hslash hstars hparse
    unfold Pattern.isAnyFolders
    rw [beq_eq_false_iff_ne]
    rintro rfl
    exact hmem List.mem_cons_self
  by_cases hempty : part = []
  · subst hempty
    obtain rfl := Except.ok.inj hparse
    exact findsFiles_of_empty htree hliteral hne hsearch
  obtain ⟨rounds, hfollow⟩ := exists_search_join_eq hne hliteral hslash hempty hparse t
  obtain rfl := Except.ok.inj (hsearch.symm.trans hfollow)
  by_cases hfolder : t.isFolder folder = true
  · obtain ⟨l, hfind, hl⟩ := FileTree.isFolder_iff.1 hfolder
    rw [follow_of_literals (List.cons_ne_nil p []) fun front hfront =>
      isFolder_of_prefix hliteral hfind hl hspelled.noGap hfront]
    change FindsFiles t folder p (follow t false (rounds + 1) (.ofPath t (arrival folder)) [p])
    cases hp : p.literal? with
    | some n => exact findsFiles_of_literal htree hspelled hslash hparse hp rounds
    | none => exact findsFiles_of_wildcards htree hspelled hslash hparse hany hliteral hfind hl hp rounds
  · have hnofile : ∀ n, '/' ∉ n → t.isFile (folder.join n) = false := by
      intro n hn
      refine Bool.eq_false_iff.2 fun hfile => hfolder ?_
      obtain ⟨-, l, hfind, hl, -⟩ := htree.of_isFile_join hne hn hfile
      exact FileTree.isFolder_iff.2 ⟨l, hfind, hl⟩
    apply findsFiles_of_no_file
    · intro item hitem
      rcases mem_follow_of_literals hitem with ⟨-, hnil⟩ | ⟨left, hitem⟩
      · cases hnil
      · cases item with
        | ok path =>
          obtain ⟨n, hn, rfl⟩ := exists_join_of_mem_follow htree hspelled hslash hparse hany hitem
          exact ⟨_, rfl, hnofile n hn⟩
        | error e => exact absurd hitem (not_error_mem_follow hany)
    · intro n hn
      obtain ⟨hname, hfile⟩ := htree.of_mem_fileNames hn
      rw [hnofile n hname.noSlash] at hfile
      cases hfile

end Search

end Glob
end Infill
