import Infill.Glob.Search
import Infill.Proofs.Files.Moves
import Infill.Proofs.Glob.Reading

/-!
# What a search finds

A search puts the paths that it finds together name by name.  Each name comes from a component of the pattern: it is
the text of the component, a step `.` or `..` that the component matches, or a name from the tree (`Allows`).  From
what one round does (`mem_follow_succ`) it follows that a path that is found was reached by such names
(`reached_of_mem_follow`), so that its moves are names of this kind (`Reached.exists_moves`).

What is known of a place comes from its path or from the folder that lists it.  So the system opens a place where a
folder was seen, unless its path is too long (`Place.Sound`), and every step keeps this (`LeadsTo.sound`): a search
fails on no other paths (`tooLong_of_mem_search`).

The components of a folder without wildcards are followed first, and they lead to one place only
(`reached_of_mem_search`); all that is found has the moves of the folder in front (`exists_moves_of_mem_search`).
-/

set_option autoImplicit false

namespace Infill.Glob

variable {t : FileTree} {foldersOnly : Bool} {rounds : Nat} {p : Pattern} {ps rest : List Pattern} {n : Text}

/-! ## Names behind a path -/

section Paths

variable {scope next : Path}

/-- A path whose only component is `.` has no moves. -/
theorem moves_of_components_eq (h : scope.components = [.current]) :
    scope.moves = [] ∧ Path.isAbsolute scope = false := by
  rw [Path.components_eq] at h
  have habsolute : Path.isAbsolute scope = false := by
    refine Bool.eq_false_iff.2 fun habsolute => ?_
    unfold Path.front at h
    rw [if_pos habsolute] at h
    cases h
  refine ⟨List.eq_nil_iff_forall_not_mem.2 fun n hn => ?_, habsolute⟩
  obtain ⟨component, hcomponent⟩ :=
    Option.isSome_iff_exists.1 (Path.isSome_component?_iff.2 (Path.isMove_of_mem_movesOf hn))
  have hmem : component ∈ Path.behindFront scope := by
    rw [Path.behindFront_eq]
    exact List.mem_filterMap.2 ⟨n, hn, hcomponent⟩
  have hcurrent : component = .current := by
    have hall := List.mem_append_right (Path.front scope) hmem
    rw [h] at hall
    exact List.mem_singleton.1 hall
  subst hcurrent
  unfold Path.component? at hcomponent
  split_ifs at hcomponent <;> cases hcomponent

/-- In `.` a name stands alone. -/
@[simp] theorem below_current (n : Text) : below ['.'] n = n := if_pos (by decide)

section Names

variable (hn : '/' ∉ n)
include hn

/-- A name is no absolute path. -/
theorem isAbsolute_of_not_mem : Path.isAbsolute n = false :=
  Bool.eq_false_iff.2 fun hhead => hn (List.mem_of_mem_head? (beq_iff_eq.1 hhead))

/-- In the root a name stands behind the slash. -/
theorem below_root : below ['/'] n = '/' :: n := by
  unfold below Path.join
  rw [if_neg (by decide), if_neg (by simp [isAbsolute_of_not_mem hn]), if_pos (by decide)]
  rfl

/-- However a name is put behind a path, it becomes the last part, and the moves of the path come before it. -/
theorem exists_splitOn_next (hnext : next = below scope n ∨ next = scope.join n) :
    ∃ before, Text.splitOn '/' next = before ++ [n] ∧ Path.movesOf before = scope.moves := by
  have habsolute := isAbsolute_of_not_mem hn
  have hsingle := Text.splitOn_of_not_mem hn
  have hjoin : ∃ before, Text.splitOn '/' (scope.join n) = before ++ [n] ∧ Path.movesOf before = scope.moves := by
    by_cases hscope : scope = []
    · subst hscope
      refine ⟨[], ?_, rfl⟩
      unfold Path.join
      rw [if_neg (by simp [habsolute]), if_pos (.inl rfl)]
      exact hsingle
    · refine ⟨Text.splitOn '/' scope.stem, ?_, Path.moves_stem scope⟩
      rw [Path.splitOn_join hscope habsolute, hsingle]
  rcases hnext with rfl | rfl
  · unfold below
    split_ifs with hcurrent
    · exact ⟨[], hsingle, (moves_of_components_eq hcurrent).1.symm⟩
    · exact hjoin
  · exact hjoin

/-- With a name behind it a path starts where it did. -/
theorem isAbsolute_next (hnext : next = below scope n ∨ next = scope.join n) :
    Path.isAbsolute next = Path.isAbsolute scope := by
  have habsolute := isAbsolute_of_not_mem hn
  have hjoin : Path.isAbsolute (scope.join n) = Path.isAbsolute scope := by
    by_cases hscope : scope = []
    · subst hscope
      unfold Path.join
      rw [if_neg (by simp [habsolute]), if_pos (.inl rfl), List.nil_append, habsolute]
      rfl
    · exact Path.isAbsolute_join hscope habsolute
  rcases hnext with rfl | rfl
  · unfold below
    split_ifs with hcurrent
    · rw [habsolute, (moves_of_components_eq hcurrent).2]
    · exact hjoin
  · exact hjoin

/-- The moves of a name come behind those of the path that it is put behind. -/
theorem moves_next (hnext : next = below scope n ∨ next = scope.join n) :
    next.moves = scope.moves ++ Path.movesOf [n] ∧ Path.isAbsolute next = Path.isAbsolute scope := by
  obtain ⟨before, hparts, hbefore⟩ := exists_splitOn_next hn hnext
  refine ⟨?_, isAbsolute_next hn hnext⟩
  unfold Path.moves
  rw [hparts, Path.movesOf_append, hbefore]
  rfl

end Names

/-- The moves of some names come behind those of the path that they are put behind. -/
theorem moves_foldl_below {names : List Text} (h : ∀ n ∈ names, '/' ∉ n) (scope : Path) :
    (names.foldl below scope).moves = scope.moves ++ Path.movesOf names ∧
      Path.isAbsolute (names.foldl below scope) = Path.isAbsolute scope := by
  induction names generalizing scope with
  | nil => exact ⟨(List.append_nil _).symm, rfl⟩
  | cons n names ih =>
    obtain ⟨hn, hnames⟩ := List.forall_mem_cons.1 h
    obtain ⟨hmoves, habsolute⟩ := moves_next hn (.inl rfl : below scope n = below scope n ∨ _)
    obtain ⟨hmoves', habsolute'⟩ := ih hnames (below scope n)
    refine ⟨?_, habsolute'.trans habsolute⟩
    rw [List.foldl_cons, hmoves', hmoves, List.append_assoc, ← Path.movesOf_append]
    rfl

end Paths

/-! ## Places -/

/-- The system opens a place where a folder was seen, unless the path is too long. -/
def Place.Sound (t : FileTree) (place : Place) : Prop :=
  place.isFolder = true → t.isFolder place.path = true ∨ FileTree.checkPath place.path = .error .nameTooLong

/-- What a path says of itself is right. -/
theorem Place.sound_ofPath (t : FileTree) (path : Path) : (Place.ofPath t path).Sound t := .inl

/-- The places that a name leads to from another one: by its path, or as an entry that a folder lists. -/
inductive LeadsTo (t : FileTree) (scope : Place) (n : Text) : Place → Prop where
  | below : LeadsTo t scope n (.ofPath t (below scope.path n))
  | join : LeadsTo t scope n (.ofPath t (scope.path.join n))
  | entry {folder : Location} (hopen : t.openFolder scope.path = .ok folder) (hn : n ∈ t.namesIn folder) :
      LeadsTo t scope n (.ofEntry t (folder ++ [n]) (Glob.below scope.path n))

/-- In each case the name is put behind the path. -/
theorem LeadsTo.path_eq {scope next : Place} (h : LeadsTo t scope n next) :
    next.path = Glob.below scope.path n ∨ next.path = scope.path.join n := by
  cases h with
  | below => exact .inl rfl
  | join => exact .inr rfl
  | entry => exact .inl rfl

section Entries

variable {scope next : Path} (hname : FileTree.IsEntryName n) (hnext : next = below scope n ∨ next = scope.join n)
include hname hnext

/-- With the name of an entry more the system takes a path that it takes, unless it is too long then. -/
theorem checkPath_next (htaken : FileTree.checkPath scope = .ok ()) :
    FileTree.checkPath next = .ok () ∨ FileTree.checkPath next = .error .nameTooLong := by
  obtain ⟨hzero, -, -⟩ := FileTree.checkPath_eq_ok_iff.1 htaken
  have hparts : '\x00' ∉ next ∧ next ≠ [] := by
    obtain ⟨hempty, -, -⟩ := hname.isName
    rcases hnext with rfl | rfl
    · unfold below Path.join
      split_ifs <;> simp [hzero, hname.noZero, hempty]
    · unfold Path.join
      split_ifs <;> simp [hzero, hname.noZero, hempty]
  unfold FileTree.checkPath
  rw [if_neg (by simpa using hparts.1), if_neg hparts.2]
  split_ifs
  · exact .inr rfl
  · exact .inl rfl

/-- A folder that another one lists is found by the path of that and its name. -/
theorem find_next {l : Location} (hfind : t.find scope = .ok l) (hl : t.isFolderAt l = true)
    (hfolder : t.isFolderAt (l ++ [n]) = true) (htaken : FileTree.checkPath next = .ok ()) :
    t.find next = .ok (l ++ [n]) := by
  obtain ⟨-, left, hwalk⟩ := (FileTree.find_folder_iff hl).1 hfind
  obtain ⟨before, hparts, hmoves⟩ := exists_splitOn_next hname.noSlash hnext
  obtain ⟨step, hstep⟩ := t.exists_walk_eq_walkParts left l [n]
  have hlast : t.walk left l [n] = .ok (l ++ [n], left) := by
    rw [hstep, FileTree.walkParts_cons_of_isName hl hname.isName, FileTree.lookUp_of_fitsName t l hname.fits,
      FileTree.isFolderAt_iff.1 hfolder]
    rfl
  refine FileTree.find_eq_ok_iff.2 ⟨htaken, left, ?_⟩
  rw [FileTree.baseOf, isAbsolute_next hname.noSlash hnext, hparts, FileTree.walk_append,
    FileTree.walk_of_moves hl (hmoves ▸ hwalk)]
  exact hlast

end Entries

/-- What a folder lists are names that the system gives. -/
theorem isEntryName_of_mem_namesIn (htree : t.IsTree) {folder : Location} (hn : n ∈ t.namesIn folder) :
    FileTree.IsEntryName n := by
  obtain ⟨entry, hentry⟩ := FileTree.mem_namesIn_iff.1 hn
  exact htree.isEntryName hentry

/-- From every place a name leads to one that is known rightly. -/
theorem LeadsTo.sound (htree : t.IsTree) {scope next : Place} (h : LeadsTo t scope n next) : next.Sound t := by
  cases h with
  | below => exact Place.sound_ofPath t _
  | join => exact Place.sound_ofPath t _
  | @entry folder hopen hn =>
    have hname := isEntryName_of_mem_namesIn htree hn
    obtain ⟨hfind, hl⟩ := FileTree.openFolder_eq_ok_iff.1 hopen
    intro hfolder
    unfold Place.ofEntry at hfolder
    dsimp only at hfolder
    split at hfolder
    · exact .inl hfolder
    · rcases checkPath_next hname (.inl rfl) (FileTree.find_eq_ok_iff.1 hfind).1 with htaken | hlong
      · exact .inl (FileTree.isFolder_iff.2 ⟨_, find_next hname (.inl rfl) hfind hl hfolder htaken, hfolder⟩)
      · exact .inr hlong

/-! ## One component -/

variable {scope next : Place} {item : Except SearchError Path} {path : Path}

/-- What is met from a place that one component led to: the place itself if no component is left. -/
def arrive (t : FileTree) (foldersOnly : Bool) (rounds : Nat) (place : Place) (rest : List Pattern) :
    List (Except SearchError Path) :=
  if rest.isEmpty then (if foldersOnly && !place.isFolder then [] else [.ok place.path])
  else follow t foldersOnly rounds place rest

/-- Whether a name is there that a component of a pattern gives. -/
def goesOn (t : FileTree) (scope : Place) (name : Text) : Bool :=
  if isStep name then scope.isFolder else t.exists? (below scope.path name)

/-- A component without wildcards leads to one place. -/
theorem follow_of_literal {name : Text} (hp : p.literal? = some name) :
    follow t foldersOnly (rounds + 1) scope (p :: ps) =
      if goesOn t scope name then arrive t foldersOnly rounds (.ofPath t (below scope.path name)) ps else [] := by
  rw [follow]
  simp only [hp]
  rfl

/-- What a component with wildcards meets behind one entry of a folder. -/
def foundUnder (t : FileTree) (foldersOnly : Bool) (rounds : Nat) (place : Place) (p : Pattern) (ps : List Pattern)
    (name : Text) : List (Except SearchError Path) :=
  if p.isAnyFolders then
    let rest := ps.dropWhile (·.isAnyFolders)
    let inside := if place.isFolder then follow t foldersOnly rounds place (p :: rest) else []
    match rest with
    | [] => if place.isFolder then .ok place.path :: inside else []
    | q :: qs => (if q.matches name then arrive t foldersOnly rounds place qs else []) ++ inside
  else if p.matches name then arrive t foldersOnly rounds place ps
  else []

/-- A component with wildcards is tried on the steps and on the entries of a folder. -/
theorem follow_of_wildcards (hp : p.literal? = none) :
    follow t foldersOnly (rounds + 1) scope (p :: ps) =
      if !scope.isFolder then []
      else
        match t.openFolder scope.path with
        | .error fault => [.error ⟨scope.path, fault⟩]
        | .ok folder =>
          (stepsMatched p).flatMap (fun step => arrive t foldersOnly rounds (.ofPath t (scope.path.join step)) ps) ++
          (t.namesIn folder).flatMap fun name =>
            foundUnder t foldersOnly rounds (.ofEntry t (folder ++ [name]) (below scope.path name)) p ps name := by
  rw [follow]
  simp only [hp]
  rfl

/-- A search that has come to a place ends there, if a folder was seen or any path will do. -/
def EndsAt (foldersOnly : Bool) (next : Place) (item : Except SearchError Path) : Prop :=
  item = .ok next.path ∧ (foldersOnly = true → next.isFolder = true)

/-- The search ends at a place or goes on from there, by the components that are left. -/
theorem mem_arrive (h : item ∈ arrive t foldersOnly rounds next rest) :
    EndsAt foldersOnly next item ∧ rest = [] ∨ item ∈ follow t foldersOnly rounds next rest := by
  unfold arrive at h
  split_ifs at h with hrest hfolder
  · cases h
  · obtain rfl := List.mem_singleton.1 h
    exact .inl ⟨⟨rfl, by simpa using hfolder⟩, List.isEmpty_iff.1 hrest⟩
  · exact .inr h

/-- Behind an entry `**` goes on by some of the components. -/
theorem mem_foundUnder_of_anyFolders (hany : p.isAnyFolders = true)
    (h : item ∈ foundUnder t foldersOnly rounds next p ps n) :
    ∃ rest, (EndsAt foldersOnly next item ∨ item ∈ follow t foldersOnly rounds next rest) ∧ rest ⊆ p :: ps := by
  have hinside : item ∈ (if next.isFolder then
      follow t foldersOnly rounds next (p :: ps.dropWhile (·.isAnyFolders)) else []) →
      ∃ rest, (EndsAt foldersOnly next item ∨ item ∈ follow t foldersOnly rounds next rest) ∧ rest ⊆ p :: ps := by
    intro hmem
    by_cases hfolder : next.isFolder = true
    · rw [if_pos hfolder] at hmem
      exact ⟨_, .inr hmem, List.cons_subset_cons p (List.dropWhile_suffix _).subset⟩
    · rw [if_neg hfolder] at hmem
      cases hmem
  unfold foundUnder at h
  rw [if_pos hany] at h
  dsimp only at h
  cases hrest : ps.dropWhile (·.isAnyFolders) with
  | nil =>
    rw [hrest] at h hinside
    dsimp only at h
    by_cases hfolder : next.isFolder = true
    · rw [if_pos hfolder] at h
      rcases List.mem_cons.1 h with rfl | h
      · exact ⟨[], .inl ⟨rfl, fun _ => hfolder⟩, List.nil_subset _⟩
      · exact hinside h
    · rw [if_neg hfolder] at h
      cases h
  | cons q qs =>
    rw [hrest] at h hinside
    rcases List.mem_append.1 h with h | h
    · by_cases hq : q.matches n = true
      · rw [if_pos hq] at h
        have hqs : qs ⊆ ps := fun r hr =>
          (List.dropWhile_suffix (·.isAnyFolders)).subset (hrest ▸ List.mem_cons_of_mem q hr)
        exact ⟨qs, (mem_arrive h).imp_left And.left, List.subset_cons_of_subset p hqs⟩
      · rw [if_neg hq] at h
        cases h
    · exact hinside h

/-- Behind an entry any other component goes on by the ones after it, if it matches the name. -/
theorem foundUnder_of_not_anyFolders (hany : p.isAnyFolders = false) (next : Place) (ps : List Pattern) (n : Text) :
    foundUnder t foldersOnly rounds next p ps n =
      if p.matches n then arrive t foldersOnly rounds next ps else [] := by
  unfold foundUnder
  rw [if_neg (by simp [hany])]

/-- What may be left of some components when the first of them has been followed: the others, unless that stands for
any run of folders. -/
def LeavesOver (p : Pattern) (ps rest : List Pattern) : Prop :=
  rest ⊆ p :: ps ∧ (p.isAnyFolders = false → rest = ps)

/-- The others may always be left. -/
theorem leavesOver_self (p : Pattern) (ps : List Pattern) : LeavesOver p ps ps :=
  ⟨List.subset_cons_self p ps, fun _ => rfl⟩

/-- Behind an entry a search ends or goes on. -/
theorem mem_foundUnder (h : item ∈ foundUnder t foldersOnly rounds next p ps n) :
    ∃ rest, (EndsAt foldersOnly next item ∨ item ∈ follow t foldersOnly rounds next rest) ∧ LeavesOver p ps rest := by
  by_cases hany : p.isAnyFolders = true
  · obtain ⟨rest, hitem, hrest⟩ := mem_foundUnder_of_anyFolders hany h
    exact ⟨rest, hitem, hrest, fun hno => absurd hany (by simp [hno])⟩
  · rw [foundUnder_of_not_anyFolders (Bool.eq_false_iff.2 hany)] at h
    split_ifs at h
    · exact ⟨ps, (mem_arrive h).imp_left And.left, leavesOver_self p ps⟩
    · cases h

/-- A name that a component of a pattern leads on by: its own text, a step that it matches, or a name from the
tree. -/
def Allows (t : FileTree) (p : Pattern) (n : Text) : Prop :=
  p.literal? = some n ∨ n ∈ stepsMatched p ∨ ∃ folder, n ∈ t.namesIn folder

/-- A folder was seen at a place and cannot be read. -/
def FailsAt (t : FileTree) (scope : Place) (item : Except SearchError Path) : Prop :=
  ∃ fault, item = .error ⟨scope.path, fault⟩ ∧ scope.isFolder = true ∧ t.openFolder scope.path = .error fault

/-- A search fails where it is, or a name leads it to a place at which it ends or goes on by the components that are
left. -/
theorem mem_follow_succ (h : item ∈ follow t foldersOnly (rounds + 1) scope (p :: ps)) :
    FailsAt t scope item ∨ ∃ n next rest, Allows t p n ∧ LeadsTo t scope n next ∧
      (EndsAt foldersOnly next item ∨ item ∈ follow t foldersOnly rounds next rest) ∧ LeavesOver p ps rest := by
  cases hp : p.literal? with
  | some name =>
    rw [follow_of_literal hp] at h
    split_ifs at h
    · exact .inr ⟨name, _, _, .inl hp, .below, (mem_arrive h).imp_left And.left, leavesOver_self p ps⟩
    · cases h
  | none =>
    rw [follow_of_wildcards hp] at h
    split_ifs at h with hfolder
    · cases h
    split at h
    · rename_i fault hfault
      exact .inl ⟨fault, List.mem_singleton.1 h, by simpa using hfolder, hfault⟩
    · rename_i folder hopen
      rcases List.mem_append.1 h with h | h
      · obtain ⟨step, hstep, h⟩ := List.mem_flatMap.1 h
        exact .inr ⟨step, _, _, .inr (.inl hstep), .join, (mem_arrive h).imp_left And.left, leavesOver_self p ps⟩
      · obtain ⟨name, hname, h⟩ := List.mem_flatMap.1 h
        obtain ⟨rest, hitem, hrest⟩ := mem_foundUnder h
        exact .inr ⟨name, _, rest, .inr (.inr ⟨folder, hname⟩), .entry hopen hname, hitem, hrest⟩

/-! ## All components -/

/-- A path that names lead to from another one. -/
inductive Reached (allowed : Text → Prop) : Path → Path → Prop where
  | refl (scope : Path) : Reached allowed scope scope
  | step {scope next path : Path} {n : Text} (hn : allowed n) (hnext : next = below scope n ∨ next = scope.join n)
      (h : Reached allowed next path) : Reached allowed scope path

/-- What is reached by some names is reached if more names are allowed. -/
theorem Reached.mono {allowed allowed' : Text → Prop} {scope path : Path} (h : Reached allowed scope path)
    (himp : ∀ n, allowed n → allowed' n) : Reached allowed' scope path := by
  induction h with
  | refl scope => exact .refl scope
  | step hn hnext _ ih => exact .step (himp _ hn) hnext ih

/-- A path that is found is reached by names that the components allow. -/
theorem reached_of_mem_follow (h : .ok path ∈ follow t foldersOnly rounds scope ps) :
    Reached (fun n => ∃ p ∈ ps, Allows t p n) scope.path path := by
  suffices hgeneral : ∀ all, ps ⊆ all → Reached (fun n => ∃ p ∈ all, Allows t p n) scope.path path from
    hgeneral ps (List.Subset.refl ps)
  intro all hall
  induction rounds generalizing scope ps with
  | zero => cases h
  | succ rounds ih =>
    cases ps with
    | nil => cases h
    | cons p ps =>
      rcases mem_follow_succ h with ⟨fault, hfails, -⟩ | ⟨n, next, rest, hallows, hleads, hitem, hrest⟩
      · cases hfails
      · refine .step ⟨p, hall List.mem_cons_self, hallows⟩ hleads.path_eq ?_
        rcases hitem with ⟨hends, -⟩ | hitem
        · obtain rfl := Except.ok.inj hends
          exact .refl _
        · exact ih hitem (List.Subset.trans hrest.1 hall)

/-- A search for folders finds no files. -/
theorem isFile_of_mem_follow (htree : t.IsTree) (h : .ok path ∈ follow t true rounds scope ps) :
    t.isFile path = false := by
  induction rounds generalizing scope ps with
  | zero => cases h
  | succ rounds ih =>
    cases ps with
    | nil => cases h
    | cons p ps =>
      rcases mem_follow_succ h with ⟨fault, hfails, -⟩ | ⟨n, next, rest, -, hleads, hitem, -⟩
      · cases hfails
      · rcases hitem with ⟨hends, hfolder⟩ | hitem
        · obtain rfl := Except.ok.inj hends
          rcases hleads.sound htree (hfolder rfl) with hfolder | hlong
          · exact FileTree.isFile_of_isFolder hfolder
          · exact FileTree.isFile_of_checkPath hlong
        · exact ih hitem

/-- The path of a folder is too long for the system, which says so. -/
def SearchError.TooLong (e : SearchError) : Prop :=
  FileTree.checkPath e.folder = .error .nameTooLong ∧ e.fault = .nameTooLong

/-- A search fails only on paths that are too long. -/
theorem tooLong_of_mem_follow (htree : t.IsTree) (hscope : scope.Sound t) {e : SearchError}
    (h : .error e ∈ follow t foldersOnly rounds scope ps) : e.TooLong := by
  induction rounds generalizing scope ps with
  | zero => cases h
  | succ rounds ih =>
    cases ps with
    | nil => cases h
    | cons p ps =>
      rcases mem_follow_succ h with ⟨fault, hfails, hfolder, hopen⟩ | ⟨n, next, rest, -, hleads, hitem, -⟩
      · obtain rfl := Except.error.inj hfails
        rcases hscope hfolder with hfolder | hlong
        · obtain ⟨l, hfind, hl⟩ := FileTree.isFolder_iff.1 hfolder
          rw [FileTree.openFolder_of_find hfind hl] at hopen
          cases hopen
        · rw [FileTree.openFolder_of_checkPath hlong] at hopen
          exact ⟨hlong, (Except.error.inj hopen).symm⟩
      · rcases hitem with ⟨hends, -⟩ | hitem
        · cases hends
        · exact ih (hleads.sound htree) hitem

/-- Whatever is searched for, the search fails only on paths that are too long. -/
theorem tooLong_of_mem_search (htree : t.IsTree) {pattern : Text} {found : List (Except SearchError Path)}
    (h : search t pattern = .ok found) {e : SearchError} (he : .error e ∈ found) : e.TooLong := by
  obtain ⟨-, -, h⟩ := Result.bind_eq_ok.1 h
  obtain ⟨components, -, h⟩ := Result.bind_eq_ok.1 h
  obtain rfl := Except.ok.inj h
  exact tooLong_of_mem_follow htree (Place.sound_ofPath t _) he

/-! ## Components behind a folder -/

/-- The components of a pattern that stand for the folder in front of it. -/
def folderComponents (folder : Path) : List Text :=
  if Path.isAbsolute folder then (Text.splitOn '/' folder.stem).tail else Text.splitOn '/' folder.stem

/-- Where the search for a pattern starts. -/
def start (pattern : Path) : Path := if Path.isAbsolute pattern then ['/'] else ['.']

variable {folder : Path} {pattern : Text}

/-- The components of a pattern are its parts, without an empty one at either end. -/
theorem componentsOf_eq (pattern : Text) : componentsOf pattern =
    let parts := if Path.isAbsolute pattern then (Text.splitOn '/' pattern).tail else Text.splitOn '/' pattern
    if parts.getLast? = some [] ∧ 1 < parts.length then parts.dropLast else parts := by
  unfold componentsOf
  by_cases habsolute : Path.isAbsolute pattern = true
  · obtain ⟨rest, rfl⟩ : ∃ rest, pattern = '/' :: rest := List.head?_eq_some_iff.1 (beq_iff_eq.1 habsolute)
    rw [if_pos habsolute, if_pos habsolute, Text.splitOn, if_pos rfl]
    rfl
  · rw [if_neg habsolute, if_neg habsolute]

/-- Behind the components of a folder come those of the pattern, of which an empty one at the end may be left
out. -/
theorem exists_componentsOf_join (hfolder : folder ≠ []) (hpattern : Path.isAbsolute pattern = false) :
    ∃ rest, componentsOf (folder.join pattern) = folderComponents folder ++ rest ∧
      rest <+: Text.splitOn '/' pattern ∧
      ((Text.splitOn '/' pattern).getLast? ≠ some [] → rest = Text.splitOn '/' pattern) := by
  have hne := Text.splitOn_ne_nil '/' pattern
  have hparts : (if Path.isAbsolute (folder.join pattern) then (Text.splitOn '/' (folder.join pattern)).tail
      else Text.splitOn '/' (folder.join pattern)) = folderComponents folder ++ Text.splitOn '/' pattern := by
    unfold folderComponents
    rw [Path.isAbsolute_join hfolder hpattern, Path.splitOn_join hfolder hpattern]
    by_cases habsolute : Path.isAbsolute folder = true
    · rw [if_pos habsolute, if_pos habsolute, List.tail_append_of_ne_nil (Text.splitOn_ne_nil '/' folder.stem)]
    · rw [if_neg habsolute, if_neg habsolute]
  rw [componentsOf_eq, hparts]
  dsimp only
  rw [List.getLast?_append_of_ne_nil _ hne]
  split_ifs with hend
  · rw [List.dropLast_append_of_ne_nil hne]
    exact ⟨_, rfl, List.dropLast_prefix _, fun hnot => absurd hend.1 hnot⟩
  · exact ⟨_, rfl, List.prefix_refl _, fun _ => rfl⟩

/-- The components of a folder have no wildcards if its path has none. -/
theorem isLiteral_of_mem_folderComponents (hliteral : IsLiteral folder) (hn : n ∈ folderComponents folder) :
    IsLiteral n ∧ '/' ∉ n := by
  have hmem : n ∈ Text.splitOn '/' folder.stem := by
    unfold folderComponents at hn
    split_ifs at hn
    · exact List.mem_of_mem_tail hn
    · exact hn
  obtain ⟨hslash, hsub⟩ := Text.mem_splitOn hmem
  exact ⟨fun c hc => hliteral c ((Path.stem_sublist folder).subset (hsub hc)), hslash⟩

/-- Nor has its text with a slash behind it. -/
theorem isLiteral_stem_slash (hliteral : IsLiteral folder) : IsLiteral (folder.stem ++ ['/']) := by
  intro c hc
  rcases List.mem_append.1 hc with hc | hc
  · exact hliteral c ((Path.stem_sublist folder).subset hc)
  · obtain rfl := List.mem_singleton.1 hc
    decide

/-- Components without wildcards read as themselves. -/
theorem mapM_parse_literal {names : List Text} (h : ∀ n ∈ names, IsLiteral n) :
    names.mapM Pattern.parse = .ok (names.map (·.map .char)) := by
  induction names with
  | nil => rfl
  | cons n names ih =>
    obtain ⟨hn, hnames⟩ := List.forall_mem_cons.1 h
    exact Result.mapM_cons_eq_ok.2 ⟨_, _, parse_literal hn, ih hnames, rfl⟩

section Search

variable (hfolder : folder ≠ []) (hliteral : IsLiteral folder) (hpattern : Path.isAbsolute pattern = false)
include hfolder hliteral hpattern

/-- A search behind a folder without wildcards follows the components of the folder first. -/
theorem of_search_join {found : List (Except SearchError Path)} (h : search t (folder.join pattern) = .ok found) :
    ∃ rest patterns, rest <+: Text.splitOn '/' pattern ∧
      ((Text.splitOn '/' pattern).getLast? ≠ some [] → rest = Text.splitOn '/' pattern) ∧
      rest.mapM Pattern.parse = .ok patterns ∧
      found = follow t ((folder.join pattern).getLast? == some '/')
        (roundsFor t ((folderComponents folder).map (·.map .char) ++ patterns))
        (.ofPath t (start folder)) ((folderComponents folder).map (·.map .char) ++ patterns) := by
  obtain ⟨rest, hcomponents, hbegins, hall⟩ := exists_componentsOf_join hfolder hpattern
  unfold search at h
  obtain ⟨-, -, h⟩ := Result.bind_eq_ok.1 h
  obtain ⟨all, hmap, h⟩ := Result.bind_eq_ok.1 h
  rw [hcomponents] at hmap
  obtain ⟨front, patterns, hfront, hpatterns, rfl⟩ := Result.mapM_append_eq_ok.1 hmap
  rw [mapM_parse_literal fun n hn => (isLiteral_of_mem_folderComponents hliteral hn).1] at hfront
  obtain rfl := Except.ok.inj hfront
  refine ⟨rest, patterns, hbegins, hall, hpatterns, ?_⟩
  rw [Path.isAbsolute_join hfolder hpattern] at h
  exact (Except.ok.inj h).symm

/-- A pattern that can be read, as a whole and by its components, can be searched for behind a folder without
wildcards. -/
theorem exists_search_join (t : FileTree) (hparse : ∃ p, Pattern.parse pattern = .ok p)
    (hparts : ∀ part ∈ Text.splitOn '/' pattern, ∃ p, Pattern.parse part = .ok p) :
    ∃ found, search t (folder.join pattern) = .ok found := by
  obtain ⟨p, hp⟩ := hparse
  obtain ⟨rest, hcomponents, hbegins, -⟩ := exists_componentsOf_join hfolder hpattern
  obtain ⟨patterns, hpatterns⟩ := Result.exists_mapM_eq_ok fun part hpart => hparts part (hbegins.subset hpart)
  have hfront := mapM_parse_literal fun n hn => (isLiteral_of_mem_folderComponents hliteral hn).1
  have hcomps := Result.mapM_append_eq_ok.2 ⟨_, _, hfront, hpatterns, rfl⟩
  have hwhole : ∃ all, Pattern.parse (folder.join pattern) = .ok all := by
    obtain ⟨all, hall, -⟩ :=
      exists_parse_append_matches (isLiteral_stem_slash hliteral) (.inr List.getLast?_concat) hp
    refine ⟨all, ?_⟩
    rw [Path.join_eq_stem_append hfolder hpattern, ← hall, List.append_assoc, List.singleton_append]
  obtain ⟨all, hall⟩ := hwhole
  refine ⟨_, Result.bind_eq_ok.2 ⟨all, hall, Result.bind_eq_ok.2 ⟨_, hcomponents ▸ hcomps, rfl⟩⟩⟩

end Search

/-! ## The moves of what is found -/

/-- A component without wildcards is its text. -/
theorem eq_map_char_of_literal? (h : p.literal? = some n) : p = n.map .char := by
  induction p generalizing n with
  | nil =>
    obtain rfl : [] = n := Option.some.inj h
    rfl
  | cons element p ih =>
    cases element with
    | char c =>
      obtain ⟨rest, hrest, rfl⟩ := Option.map_eq_some_iff.1 h
      rw [ih hrest, List.map_cons]
    | anyChar | anyRun | anyFolders | within | except => cases h

/-- There are two steps. -/
theorem eq_of_mem_stepsMatched (h : n ∈ stepsMatched p) : n = ['.', '.'] ∨ n = ['.'] := by
  unfold stepsMatched at h
  split_ifs at h
  · simpa using List.mem_of_mem_filter h
  · cases h

/-- No slash is in a name that leads on. -/
theorem not_mem_of_allows (htree : t.IsTree) {part : Text} (hpart : '/' ∉ part) (hp : Pattern.parse part = .ok p)
    (hallows : Allows t p n) : '/' ∉ n := by
  rcases hallows with hliteral | hstep | ⟨l, hname⟩
  · intro hslash
    refine hpart (mem_of_char_mem_parse hp ?_)
    rw [eq_map_char_of_literal? hliteral]
    exact List.mem_map_of_mem hslash
  · rcases eq_of_mem_stepsMatched hstep with rfl | rfl <;> decide
  · exact (isEntryName_of_mem_namesIn htree hname).noSlash

/-- Whether a component of a pattern leads to `.` or to `..`. -/
def Pattern.leadsTo (p : Pattern) (step : Text) : Bool := p.head? == some (.char '.') && p.matches step

/-- A component leads on by `.` or by `..` only if it begins with a point and matches it. -/
theorem leadsTo_of_allows (htree : t.IsTree) (hallows : Allows t p n) (hn : n = ['.'] ∨ n = ['.', '.']) :
    p.leadsTo n = true := by
  rcases hallows with hliteral | hstep | ⟨l, hname⟩
  · obtain rfl := eq_map_char_of_literal? hliteral
    rcases hn with rfl | rfl <;> decide
  · unfold stepsMatched at hstep
    split_ifs at hstep with hhead
    · unfold Pattern.leadsTo
      rw [hhead, (List.mem_filter.1 hstep).2]
      rfl
    · cases hstep
  · obtain ⟨-, hcurrent, hparent⟩ := (isEntryName_of_mem_namesIn htree hname).isName
    exact absurd hn (not_or.2 ⟨hcurrent, hparent⟩)

/-- The moves of what is reached are those of where it is reached from, and the names on the way. -/
theorem Reached.exists_moves {allowed : Text → Prop} {scope path : Path} (hallowed : ∀ n, allowed n → '/' ∉ n)
    (h : Reached allowed scope path) : ∃ names, (∀ n ∈ names, Path.IsMove n ∧ allowed n) ∧
      path.moves = scope.moves ++ names ∧ Path.isAbsolute path = Path.isAbsolute scope := by
  induction h with
  | refl scope => exact ⟨[], fun n hn => absurd hn List.not_mem_nil, (List.append_nil _).symm, rfl⟩
  | @step scope next path n hn hnext _ ih =>
    obtain ⟨names, hnames, hmoves, habsolute⟩ := ih
    obtain ⟨hmoves', habsolute'⟩ := moves_next (hallowed n hn) hnext
    refine ⟨Path.movesOf [n] ++ names, fun m hm => ?_, ?_, habsolute.trans habsolute'⟩
    · rcases List.mem_append.1 hm with hm | hm
      · have hsame : m = n := List.mem_singleton.1 (List.mem_of_mem_filter hm)
        exact ⟨Path.isMove_of_mem_movesOf hm, hsame ▸ hn⟩
      · exact hnames m hm
    · rw [hmoves, hmoves', List.append_assoc]

/-- Components without wildcards lead on by their own text. -/
theorem mem_follow_of_literals {names : List Text} {scope : Path}
    (h : item ∈ follow t foldersOnly rounds (.ofPath t scope) (names.map (·.map .char) ++ ps)) :
    item = .ok (names.foldl below scope) ∧ ps = [] ∨
      ∃ left, item ∈ follow t foldersOnly left (.ofPath t (names.foldl below scope)) ps := by
  induction names generalizing rounds scope with
  | nil => exact .inr ⟨rounds, h⟩
  | cons n names ih =>
    cases rounds with
    | zero => cases h
    | succ rounds =>
      rw [List.map_cons, List.cons_append, follow_of_literal (literal?_map_char n)] at h
      split_ifs at h
      · rcases mem_arrive h with ⟨⟨rfl, -⟩, hnil⟩ | h
        · obtain ⟨hnames, hps⟩ := List.append_eq_nil_iff.1 hnil
          obtain rfl : names = [] := List.map_eq_nil_iff.1 hnames
          exact .inl ⟨rfl, hps⟩
        · exact ih h
      · cases h

/-- Components without wildcards read no folder, so that they fail on none. -/
theorem not_error_mem_follow_of_literals {names : List Text} {scope : Path} {e : SearchError} :
    .error e ∉ follow t foldersOnly rounds (.ofPath t scope) (names.map (·.map .char)) := by
  intro h
  rw [← List.append_nil (names.map _)] at h
  rcases mem_follow_of_literals h with ⟨hends, -⟩ | ⟨left, h⟩
  · cases hends
  · cases left <;> cases h

/-- Components without wildcards lead on if all of them lead through folders. -/
theorem follow_of_literals {names : List Text} {scope : Path} (hps : ps ≠ [])
    (hfolders : ∀ front, front <+: names → t.isFolder (front.foldl below scope) = true) :
    follow t foldersOnly (rounds + names.length) (.ofPath t scope) (names.map (·.map .char) ++ ps) =
      follow t foldersOnly rounds (.ofPath t (names.foldl below scope)) ps := by
  induction names generalizing scope with
  | nil => rfl
  | cons n names ih =>
    have hscope : t.isFolder scope = true := hfolders [] List.nil_prefix
    have hnext : t.isFolder (below scope n) = true := hfolders [n] (List.cons_prefix_cons.2 ⟨rfl, List.nil_prefix⟩)
    have hthere : t.exists? (below scope n) = true := by
      obtain ⟨l, hfind, -⟩ := FileTree.isFolder_iff.1 hnext
      unfold FileTree.exists?
      rw [hfind]
    have hgoes : goesOn t (.ofPath t scope) n = true := by
      unfold goesOn Place.ofPath
      rw [hscope, hthere, ite_self]
    rw [List.length_cons, ← Nat.add_assoc, List.map_cons, List.cons_append, follow_of_literal (literal?_map_char n),
      if_pos hgoes, arrive, if_neg (by simp [hps])]
    exact ih fun front hfront => hfolders (n :: front) (List.cons_prefix_cons.2 ⟨rfl, hfront⟩)

/-- The search starts without moves, at the root if the path does. -/
theorem moves_start (folder : Path) :
    (start folder).moves = [] ∧ Path.isAbsolute (start folder) = Path.isAbsolute folder := by
  unfold start
  split_ifs with habsolute
  · rw [habsolute]
    decide
  · rw [Bool.eq_false_iff.2 habsolute]
    decide

/-- The first part of an absolute path is empty. -/
theorem exists_splitOn_stem_of_isAbsolute (h : Path.isAbsolute folder = true) :
    ∃ parts, Text.splitOn '/' folder.stem = [] :: parts := by
  obtain ⟨rest, rfl⟩ : ∃ rest, folder = '/' :: rest := List.head?_eq_some_iff.1 (beq_iff_eq.1 h)
  obtain ⟨part, parts, hfirst⟩ := List.exists_cons_of_ne_nil (Text.splitOn_ne_nil '/' (Path.stem ('/' :: rest)))
  obtain ⟨k, hparts⟩ := Path.exists_splitOn_eq_stem ('/' :: rest)
  rw [hfirst, Text.splitOn, if_pos rfl, List.cons_append] at hparts
  obtain ⟨rfl, -⟩ := List.cons.inj hparts
  exact ⟨parts, hfirst⟩

/-- The moves among the components of a folder are those of its path. -/
theorem movesOf_folderComponents (folder : Path) : Path.movesOf (folderComponents folder) = folder.moves := by
  rw [← Path.moves_stem]
  unfold folderComponents Path.moves
  split_ifs with habsolute
  · obtain ⟨parts, hfirst⟩ := exists_splitOn_stem_of_isAbsolute habsolute
    rw [hfirst, Path.movesOf_cons_of_not_isMove (by decide), List.tail_cons]
  · rfl

/-- Where the components of a folder lead. -/
def arrival (folder : Path) : Path := (folderComponents folder).foldl below (start folder)

/-- Where the components of a folder lead, the moves are those of its path. -/
theorem moves_arrival (hliteral : IsLiteral folder) : (arrival folder).moves = folder.moves ∧
    Path.isAbsolute (arrival folder) = Path.isAbsolute folder := by
  obtain ⟨hmoves, habsolute⟩ := moves_start folder
  obtain ⟨hmoves', habsolute'⟩ := moves_foldl_below
    (fun n hn => (isLiteral_of_mem_folderComponents hliteral hn).2) (start folder)
  refine ⟨hmoves'.trans ?_, habsolute'.trans habsolute⟩
  rw [hmoves, List.nil_append, movesOf_folderComponents]

/-- A name that one of the components of a pattern leads on by. -/
def LeadsOn (t : FileTree) (pattern n : Text) : Prop :=
  ∃ part ∈ Text.splitOn '/' pattern, ∃ p, Pattern.parse part = .ok p ∧ Allows t p n

/-- No slash is in a name by which a pattern leads on. -/
theorem not_mem_of_leadsOn (htree : t.IsTree) (h : LeadsOn t pattern n) : '/' ∉ n := by
  obtain ⟨part, hpart, p, hparse, hallows⟩ := h
  exact not_mem_of_allows htree (Text.mem_splitOn hpart).1 hparse hallows

/-- No component of a pattern leads to a step. -/
def Avoids (pattern step : Text) : Prop :=
  ∀ part ∈ Text.splitOn '/' pattern, ∀ p, Pattern.parse part = .ok p → p.leadsTo step = false

/-- A pattern of one component avoids a step that it does not lead to. -/
theorem avoids_of_parse {step : Text} (hslash : '/' ∉ pattern) (hparse : Pattern.parse pattern = .ok p)
    (hnot : p.leadsTo step = false) : Avoids pattern step := by
  intro part hpart q hq
  obtain rfl := Text.eq_of_mem_splitOn hslash hpart
  obtain rfl := Except.ok.inj (hparse.symm.trans hq)
  exact hnot

/-- A pattern that avoids a step does not lead on by it. -/
theorem Avoids.ne_of_leadsOn {step : Text} (h : Avoids pattern step) (hstep : step = ['.'] ∨ step = ['.', '.'])
    (htree : t.IsTree) (hn : LeadsOn t pattern n) : n ≠ step := by
  rintro rfl
  obtain ⟨part, hpart, p, hparse, hallows⟩ := hn
  have hleads := leadsTo_of_allows htree hallows hstep
  rw [h part hpart p hparse] at hleads
  cases hleads

section Search

variable (hfolder : folder ≠ []) (hliteral : IsLiteral folder) (hpattern : Path.isAbsolute pattern = false)
  {found : List (Except SearchError Path)} (h : search t (folder.join pattern) = .ok found) (hpath : .ok path ∈ found)
include hfolder hliteral hpattern h hpath

/-- What is found behind a folder without wildcards is reached from where the folder leads. -/
theorem reached_of_mem_search : Reached (LeadsOn t pattern) (arrival folder) path := by
  obtain ⟨rest, patterns, hbegins, -, hpatterns, rfl⟩ := of_search_join hfolder hliteral hpattern h
  rcases mem_follow_of_literals hpath with ⟨hends, -⟩ | ⟨left, hpath⟩
  · obtain rfl := Except.ok.inj hends
    exact .refl _
  · refine (reached_of_mem_follow hpath).mono fun n hn => ?_
    obtain ⟨p, hp, hallows⟩ := hn
    obtain ⟨part, hpart, hparse⟩ := Result.exists_of_mem_mapM hpatterns hp
    exact ⟨part, hbegins.subset hpart, p, hparse, hallows⟩

/-- It has the moves of the folder, and behind them names by which the components of the pattern lead on. -/
theorem exists_moves_of_mem_search (htree : t.IsTree) : ∃ names,
    (∀ n ∈ names, Path.IsMove n ∧ LeadsOn t pattern n) ∧ path.moves = folder.moves ++ names ∧
      Path.isAbsolute path = Path.isAbsolute folder := by
  obtain ⟨hmoves, habsolute⟩ := moves_arrival hliteral
  obtain ⟨names, hnames, hmoves', habsolute'⟩ :=
    (reached_of_mem_search hfolder hliteral hpattern h hpath).exists_moves fun n => not_mem_of_leadsOn htree
  exact ⟨names, hnames, hmoves'.trans (congrArg (· ++ names) hmoves), habsolute'.trans habsolute⟩

end Search

end Infill.Glob
