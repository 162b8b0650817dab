import Infill.Proofs.Glob.Search

/-!
# Searching one folder

A search looks a folder up under texts that it has put together from the components of its path.  They are no longer
than the path (`foldl_below_sublist`), so that the system takes them if it takes the path, unless one of them is
empty, which a gap at the front of the path makes it (`NoGap`).  So the search arrives in the folder
(`find_arrival`), and for a pattern that is one component with wildcards it finds the names there that match
(`search_join_eq`).
-/

set_option autoImplicit false

namespace Infill.Glob

variable {t : FileTree} {folder scope : Path} {names front : List Text} {n : Text} {l : Location}

/-! ## The texts that are looked up -/

/-- A name more makes the text longer by the name and a slash at most. -/
theorem below_sublist (scope : Path) (hn : '/' ∉ n) : (below scope n).Sublist (scope ++ '/' :: n) := by
  have hrelative : ¬ Path.isAbsolute n = true := by simp [isAbsolute_of_not_mem hn]
  unfold below Path.join
  rw [if_neg hrelative]
  split_ifs
  · exact (List.sublist_cons_self '/' n).trans (List.sublist_append_right scope _)
  · exact (List.Sublist.refl scope).append (List.sublist_cons_self '/' n)
  · exact List.Sublist.refl _

/-- Some names more make the text longer by the names and their slashes at most. -/
theorem foldl_below_sublist (hnames : ∀ n ∈ names, '/' ∉ n) (scope : Path) :
    (names.foldl below scope).Sublist (scope ++ names.flatMap ('/' :: ·)) := by
  induction names generalizing scope with
  | nil => simp
  | cons n names ih =>
    obtain ⟨hn, hnames⟩ := List.forall_mem_cons.1 hnames
    rw [List.foldl_cons, List.flatMap_cons, ← List.append_assoc]
    exact (ih hnames (below scope n)).trans ((below_sublist scope hn).append (List.Sublist.refl _))

/-- Components behind the start of a path: in an absolute path an empty part comes before them. -/
def startParts (folder : Path) (names : List Text) : List Text := if Path.isAbsolute folder then [] :: names else names

/-- The components of a folder are the parts of its text. -/
theorem startParts_folderComponents (folder : Path) :
    startParts folder (folderComponents folder) = Text.splitOn '/' folder.stem := by
  unfold startParts folderComponents
  by_cases habsolute : Path.isAbsolute folder = true
  · obtain ⟨parts, hparts⟩ := exists_splitOn_stem_of_isAbsolute habsolute
    rw [if_pos habsolute, if_pos habsolute, hparts, List.tail_cons]
  · rw [if_neg habsolute, if_neg habsolute]

/-- More components follow behind the first ones. -/
theorem startParts_append (folder : Path) (names more : List Text) :
    startParts folder (names ++ more) = startParts folder names ++ more := by
  unfold startParts
  split_ifs <;> rfl

/-- From the start of a path, the text of some components is not longer than the text of their parts. -/
theorem foldl_below_start_sublist (hnames : ∀ n ∈ names, '/' ∉ n) (hne : names ≠ []) :
    (names.foldl below (start folder)).Sublist (Text.joinWith ['/'] (startParts folder names)) := by
  obtain ⟨n, names, rfl⟩ := List.exists_cons_of_ne_nil hne
  obtain ⟨hn, hnames⟩ := List.forall_mem_cons.1 hnames
  unfold start startParts
  rw [List.foldl_cons]
  by_cases habsolute : Path.isAbsolute folder = true
  · rw [if_pos habsolute, if_pos habsolute, below_root hn, Text.joinWith_cons, List.nil_append, List.flatMap_cons]
    exact foldl_below_sublist hnames ('/' :: n)
  · rw [if_neg habsolute, if_neg habsolute, below_current, Text.joinWith_cons]
    exact foldl_below_sublist hnames n

/-- No component of a folder has a slash in it. -/
theorem not_mem_of_prefix (hliteral : IsLiteral folder) (hfront : front <+: folderComponents folder) :
    ∀ n ∈ front, '/' ∉ n := fun _ hn =>
  (isLiteral_of_mem_folderComponents hliteral (hfront.subset hn)).2

/-- The text of a folder is not shorter than that of the first of its components. -/
theorem foldl_below_sublist_stem (hliteral : IsLiteral folder) (hfront : front <+: folderComponents folder)
    (hne : front ≠ []) : (front.foldl below (start folder)).Sublist folder.stem := by
  have hslash := not_mem_of_prefix hliteral hfront
  obtain ⟨more, hmore⟩ := hfront
  have hjoin : Text.joinWith ['/'] (startParts folder front ++ more) = folder.stem := by
    rw [← startParts_append, hmore, startParts_folderComponents, Text.joinWith_splitOn]
  exact (foldl_below_start_sublist hslash hne).trans
    (hjoin ▸ Text.joinWith_sublist '/' (List.prefix_append (startParts folder front) more))

/-- The text for a name in the folder is not longer than the path of the folder with the name. -/
theorem below_arrival_sublist (hliteral : IsLiteral folder) (hne : folder ≠ []) (hn : '/' ∉ n) :
    (below (arrival folder) n).Sublist (folder.join n) := by
  have hslash : ∀ m ∈ folderComponents folder ++ [n], '/' ∉ m := by
    intro m hm
    rcases List.mem_append.1 hm with hm | hm
    · exact not_mem_of_prefix hliteral (List.prefix_refl _) m hm
    · exact List.mem_singleton.1 hm ▸ hn
  have hsub : ((folderComponents folder ++ [n]).foldl below (start folder)).Sublist
      (Text.joinWith ['/'] (startParts folder (folderComponents folder ++ [n]))) :=
    foldl_below_start_sublist hslash (by simp)
  rw [startParts_append, startParts_folderComponents,
    Text.joinWith_append '/' (Text.splitOn_ne_nil '/' folder.stem) (List.cons_ne_nil n []), Text.joinWith_splitOn,
    List.foldl_concat] at hsub
  rw [Path.join_eq_stem_append hne (isAbsolute_of_not_mem hn)]
  simpa [Text.joinWith, arrival] using hsub

/-! ## Paths that are not empty -/

/-- In a relative path no empty part comes first behind `.` at the front. -/
def NoGap (folder : Path) : Prop :=
  Path.isAbsolute folder = false → ((folderComponents folder).dropWhile (· == ['.'])).head? ≠ some []

instance (folder : Path) : Decidable (NoGap folder) := inferInstanceAs (Decidable (_ → _))

/-- From `.` no empty text is put together, unless an empty part comes first. -/
theorem foldl_below_ne_nil {more : List Text} (hnames : ∀ n ∈ names, '/' ∉ n)
    (hgap : ((names ++ more).dropWhile (· == ['.'])).head? ≠ some []) : names.foldl below ['.'] ≠ [] := by
  induction names with
  | nil => exact List.cons_ne_nil _ _
  | cons n names ih =>
    obtain ⟨hn, hrest⟩ := List.forall_mem_cons.1 hnames
    rw [List.foldl_cons, below_current]
    by_cases hcurrent : n = ['.']
    · subst hcurrent
      exact ih hrest hgap
    · have hempty : n ≠ [] := by
        rintro rfl
        exact hgap rfl
      refine Path.ne_nil_of_moves ?_
      rw [(moves_foldl_below hrest n).1, Path.moves_of_not_mem hn, Path.movesOf_cons_of_isMove ⟨hempty, hcurrent⟩]
      exact List.cons_ne_nil _ _

section Start

variable (hliteral : IsLiteral folder) (hgap : NoGap folder) (hfront : front <+: folderComponents folder)
include hliteral hgap hfront

/-- None of the texts that are looked up for a folder is empty, if it has no gap. -/
theorem foldl_below_start_ne_nil : front.foldl below (start folder) ≠ [] := by
  have hslash := not_mem_of_prefix hliteral hfront
  by_cases habsolute : Path.isAbsolute folder = true
  · have hstarts := (moves_foldl_below hslash (start folder)).2.trans (moves_start folder).2
    rw [habsolute] at hstarts
    rintro hnil
    rw [hnil] at hstarts
    cases hstarts
  · obtain ⟨more, hmore⟩ := hfront
    have hhead := hgap (Bool.eq_false_iff.2 habsolute)
    rw [← hmore] at hhead
    unfold start
    rw [if_neg habsolute]
    exact foldl_below_ne_nil hslash hhead

/-- The system takes the texts of the components of a folder, if it takes the folder. -/
theorem checkPath_of_prefix (htaken : FileTree.checkPath folder = .ok ()) :
    FileTree.checkPath (front.foldl below (start folder)) = .ok () := by
  by_cases hnil : front = []
  · subst hnil
    unfold start
    split_ifs <;> decide
  · exact FileTree.checkPath_of_sublist
      ((foldl_below_sublist_stem hliteral hfront hnil).trans (Path.stem_sublist folder))
      (foldl_below_start_ne_nil hliteral hgap hfront) htaken

end Start

/-! ## Patterns of one component -/

/-- A component with wildcards that stands for names of entries only. -/
structure MatchesNames (p : Pattern) : Prop where
  wildcards : p.literal? = none
  noFolders : p.isAnyFolders = false
  noSteps : stepsMatched p = []

variable {part : Text} {p : Pattern}

/-- In a folder a component with wildcards finds the steps and the names that match it, unless it stands for any run
of folders. -/
theorem follow_of_not_anyFolders (hp : p.literal? = none) (hany : p.isAnyFolders = false) (hfind : t.find scope = .ok l)
    (hfolder : t.isFolderAt l = true) (rounds : Nat) : follow t false (rounds + 1) (.ofPath t scope) [p] =
      ((stepsMatched p).map scope.join ++ ((t.namesIn l).filter p.matches).map (below scope)).map .ok := by
  have hunder : ∀ name, foundUnder t false rounds (.ofEntry t (l ++ [name]) (below scope name)) p [] name =
      if p.matches name then [.ok (below scope name)] else [] := fun name => foundUnder_of_not_anyFolders hany _ _ _
  have hstep : ∀ step, arrive t false rounds (.ofPath t (scope.join step)) [] = [.ok (scope.join step)] := fun _ => rfl
  have hseen : (Place.ofPath t scope).isFolder = true := FileTree.isFolder_iff.2 ⟨l, hfind, hfolder⟩
  have hopen : t.openFolder (Place.ofPath t scope).path = .ok l := FileTree.openFolder_of_find hfind hfolder
  rw [follow_of_wildcards hp, hseen, hopen, List.map_append, List.map_map, List.map_map]
  simp only [Bool.not_true, Bool.false_eq_true, if_false, Place.ofPath, hunder]
  congr 1
  · exact List.map_eq_flatMap.symm
  · induction t.namesIn l with
    | nil => rfl
    | cons name names ih => by_cases hmatches : p.matches name = true <;> simp [hmatches, ih]

/-- In a folder a component that stands for names only finds the names that match it. -/
theorem follow_of_matchesNames (hnames : MatchesNames p) (hfind : t.find scope = .ok l)
    (hfolder : t.isFolderAt l = true) (rounds : Nat) :
    follow t false (rounds + 1) (.ofPath t scope) [p] =
      (((t.namesIn l).filter p.matches).map (below scope)).map .ok := by
  rw [follow_of_not_anyFolders hnames.wildcards hnames.noFolders hfind hfolder, hnames.noSteps, List.map_nil,
    List.nil_append]

/-- A path to which a name was added ends in this name. -/
theorem fileName?_next {next : Path} (hn : '/' ∉ n) (hname : Path.IsName n)
    (hnext : next = below scope n ∨ next = scope.join n) : Path.fileName? next = some n := by
  refine Path.fileName?_eq_some_iff.2 ⟨Path.front next ++ scope.moves.filterMap Path.component?, ?_⟩
  rw [Path.components_eq, Path.behindFront_eq, (moves_next hn hnext).1,
    Path.movesOf_cons_of_isMove (Path.isName_iff.1 hname).1, List.filterMap_append, List.append_assoc]
  congr 2
  exact List.filterMap_cons_some (Path.component?_of_isName hname)

/-- A pattern of one component behind a folder without wildcards is followed behind the components of the folder, for
which there are rounds enough. -/
theorem exists_search_join_eq (hne : folder ≠ []) (hliteral : IsLiteral folder) (hslash : '/' ∉ part)
    (hempty : part ≠ []) (hparse : Pattern.parse part = .ok p) (t : FileTree) :
    ∃ rounds, search t (folder.join part) = .ok (follow t false (rounds + 1 + (folderComponents folder).length)
      (.ofPath t (start folder)) ((folderComponents folder).map (·.map .char) ++ [p])) := by
  have hrelative := isAbsolute_of_not_mem hslash
  have hsingle := Text.splitOn_of_not_mem hslash
  obtain ⟨found, hfound⟩ := exists_search_join hne hliteral hrelative t ⟨p, hparse⟩ fun other hother =>
    ⟨p, Text.eq_of_mem_splitOn hslash hother ▸ hparse⟩
  obtain ⟨rest, patterns, -, hall, hpatterns, hfollow⟩ := of_search_join hne hliteral hrelative hfound
  obtain rfl : rest = [part] := by
    rw [hall (by simp [hsingle, hempty]), hsingle]
  obtain rfl : patterns = [p] :=
    Except.ok.inj (hpatterns.symm.trans (Result.mapM_cons_eq_ok.2 ⟨p, [], hparse, rfl, rfl⟩))
  have hend : ((folder.join part).getLast? == some '/') = false := by
    rw [Path.join_eq_stem_append hne hrelative, List.append_cons, List.getLast?_append_of_ne_nil _ hempty,
      beq_eq_false_iff_ne]
    exact fun hlast => hslash (List.mem_of_getLast? hlast)
  have hrounds : roundsFor t ((folderComponents folder).map (·.map .char) ++ [p]) =
      (FileTree.linkLimit + 1) * (t.entries.length + 1) + 1 + 1 + (folderComponents folder).length := by
    simp only [roundsFor, List.length_append, List.length_map, List.length_singleton]
    omega
  exact ⟨_, by rw [hfound, hfollow, hend, hrounds]⟩

/-! ## A folder -/

section Folder

variable (hliteral : IsLiteral folder) (hfind : t.find folder = .ok l) (hfolder : t.isFolderAt l = true)
include hliteral hfind hfolder

/-- A name is found in the folder under the text of the search as it is under its own path. -/
theorem find_below_arrival (hn : '/' ∉ n) (hmove : Path.IsMove n)
    (htaken : FileTree.checkPath (folder.join n) = .ok ()) :
    t.find (below (arrival folder) n) = t.find (folder.join n) := by
  obtain ⟨-, left, hwalk⟩ := (FileTree.find_folder_iff hfolder).1 hfind
  -- Both paths lead to the folder first, and from there by the name.
  have hwalks : ∀ {scope next : Path}, scope.moves = folder.moves → Path.isAbsolute scope = Path.isAbsolute folder →
      (next = below scope n ∨ next = scope.join n) →
      t.walk FileTree.linkLimit (FileTree.baseOf t.workingFolder next) (Text.splitOn '/' next) = t.walk left l [n] := by
    intro scope next hmoves habsolute hnext
    obtain ⟨before, hparts, hbefore⟩ := exists_splitOn_next hn hnext
    rw [FileTree.baseOf, isAbsolute_next hn hnext, habsolute, hparts, FileTree.walk_append,
      FileTree.walk_of_moves hfolder (hbefore ▸ hmoves ▸ hwalk)]
    rfl
  obtain ⟨hmoves, habsolute⟩ := moves_arrival hliteral
  have htaken' : FileTree.checkPath (below (arrival folder) n) = .ok () := by
    refine FileTree.checkPath_of_sublist (below_arrival_sublist hliteral (FileTree.ne_nil_of_find hfind) hn)
      (Path.ne_nil_of_moves ?_) htaken
    rw [(moves_next hn (.inl rfl)).1, Path.movesOf_cons_of_isMove hmove]
    simp
  rw [FileTree.find_eq, FileTree.find_eq, htaken, htaken', hwalks hmoves habsolute (.inl rfl),
    hwalks rfl rfl (.inr rfl)]

variable (hgap : NoGap folder)
include hgap

/-- The components of a folder lead through folders. -/
theorem isFolder_of_prefix (hfront : front <+: folderComponents folder) :
    t.isFolder (front.foldl below (start folder)) = true := by
  have hslash := not_mem_of_prefix hliteral hfront
  obtain ⟨hstart, habsoluteStart⟩ := moves_start folder
  obtain ⟨hmoves, habsolute⟩ := moves_foldl_below hslash (start folder)
  rw [hstart, List.nil_append] at hmoves
  rw [habsoluteStart] at habsolute
  obtain ⟨htaken, left, hwalk⟩ := (FileTree.find_folder_iff hfolder).1 hfind
  have htaken' := checkPath_of_prefix hliteral hgap hfront htaken
  obtain ⟨more, hmore⟩ := hfront
  rw [← movesOf_folderComponents, ← hmore, Path.movesOf_append, ← hmoves] at hwalk
  obtain ⟨m, rest, hwalk', hm, -⟩ := FileTree.exists_walk_of_append (fun _ => hfolder) hwalk
  refine FileTree.isFolder_iff.2 ⟨m, (FileTree.find_folder_iff hm).2 ⟨htaken', rest, ?_⟩, hm⟩
  rwa [FileTree.baseOf, habsolute]

/-- The search arrives in the folder. -/
theorem find_arrival : t.find (arrival folder) = .ok l := by
  have harrived := isFolder_of_prefix hliteral hfind hfolder hgap (List.prefix_refl _)
  obtain ⟨m, hm, -⟩ := FileTree.isFolder_iff.1 harrived
  obtain ⟨hmoves, habsolute⟩ := moves_arrival hliteral
  obtain rfl := FileTree.eq_of_moves_eq hmoves habsolute hm hfind
  exact hm

/-- A pattern that is one component with wildcards finds the names of the folder that match it. -/
theorem search_join_eq (hslash : '/' ∉ part) (hempty : part ≠ []) (hparse : Pattern.parse part = .ok p)
    (hnames : MatchesNames p) :
    search t (folder.join part) = .ok ((((t.namesIn l).filter p.matches).map (below (arrival folder))).map .ok) := by
  obtain ⟨rounds, hsearch⟩ := exists_search_join_eq (FileTree.ne_nil_of_find hfind) hliteral hslash hempty hparse t
  rw [hsearch, follow_of_literals (List.cons_ne_nil p []) fun front hfront =>
    isFolder_of_prefix hliteral hfind hfolder hgap hfront]
  exact congrArg Except.ok (follow_of_matchesNames hnames (find_arrival hliteral hfind hfolder hgap) hfolder rounds)

end Folder

end Infill.Glob
