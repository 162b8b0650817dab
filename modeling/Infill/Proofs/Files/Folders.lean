import Infill.Proofs.Files.Change

/-!
# Making folders

A folder is made where the last name of a path is to be looked up, if nothing stands there yet.  If something
does, nothing is made, and that counts as success, whatever stands there.  So what success gives is a folder, or
something else that stood there before (`FolderOrTaken`).

Of a chain of folders each is made inside the one before, so that all of them are folders by which a later one
was reached (`FolderOrTaken.of_join`); only the last may be taken by something else.
-/

set_option autoImplicit false

namespace Infill

namespace FileTree

variable {t u v : FileTree} {p q : Path} {l folder : Location} {n : Text} {slash : Bool} {last : LastPart}

/-! ## Folders and what stands in their place -/

/-- A path leads to a folder in `u`, or something else stands under its last name that stood there in `t`. -/
def FolderOrTaken (t u : FileTree) (p : Path) : Prop :=
  u.isFolder p = true ∨ ∃ folder n slash entry, u.findParent p = .ok (folder, .name n slash) ∧
    u.entryAt? (folder ++ [n]) = some entry ∧ entry ≠ .folder ∧ t.entryAt? (folder ++ [n]) = some entry

/-- What stands in the second tree and not in the first one is a folder. -/
def AddsFolders (t u : FileTree) : Prop :=
  ∀ l entry, u.entryAt? l = some entry → entry = .folder ∨ t.entryAt? l = some entry

namespace FolderOrTaken

/-- What stood in the tree in between stood in the first one, or is a folder. -/
theorem mono (h : FolderOrTaken u v p) (hfolders : AddsFolders t u) : FolderOrTaken t v p := by
  rcases h with hfolder | ⟨folder, n, slash, entry, hparent, hthere, hother, hentry⟩
  · exact .inl hfolder
  · exact .inr ⟨folder, n, slash, entry, hparent, hthere, hother, (hfolders _ _ hentry).resolve_left hother⟩

/-- It is so in every larger tree. -/
theorem within (h : FolderOrTaken t u p) (hwithin : u.Within v) (hworking : v.workingFolder = u.workingFolder) :
    FolderOrTaken t v p := by
  rcases h with hfolder | ⟨folder, n, slash, entry, hparent, hthere, hother, hentry⟩
  · exact .inl (hwithin.isFolder hworking hfolder)
  · exact .inr ⟨folder, n, slash, entry, hwithin.findParent hworking hparent, hwithin _ _ hthere, hother, hentry⟩

end FolderOrTaken

/-- A path that is there leads to a folder, or something else stands under its last name. -/
theorem folderOrTaken_of_exists? (htree : t.IsTree) (h : t.exists? p = true) : FolderOrTaken t t p := by
  unfold exists? at h
  cases hfind : t.find p with
  | error fault =>
    rw [hfind] at h
    cases h
  | ok l =>
    cases hl : t.isFolderAt l with
    | true => exact .inl (isFolder_iff.2 ⟨l, hfind, hl⟩)
    | false =>
      obtain ⟨folder, n, slash, entry, hparent, hentry, hother⟩ := exists_findParent_of_not_folder htree hfind hl
      exact .inr ⟨folder, n, slash, entry, hparent, hentry, hother, hentry⟩

/-! ## The way to a path goes through the one it is joined to -/

/-- Where a joined path leads to a folder, or is taken by something else, the path that it is joined to leads to a
folder, unless it ends in the same name. -/
theorem FolderOrTaken.of_join (h : FolderOrTaken t u (p.join q)) (hp : p ≠ []) (hq : Path.isAbsolute q = false) :
    FolderOrTaken t u p := by
  obtain ⟨front, k, hparts, hjoined⟩ := Path.exists_splitOn_join hp hq
  have hbase := baseOf_join u.workingFolder hp hq
  have hthrough : ∀ l left, checkPath p = .ok () → u.isFolderAt l = true →
      u.walk linkLimit (baseOf u.workingFolder p) front = .ok (l, left) → u.isFolder p = true := by
    intro l left htaken hl hwalk
    refine isFolder_iff.2 ⟨l, find_eq_ok_iff.2 ⟨htaken, left, ?_⟩, hl⟩
    rw [hparts]
    exact walk_append_replicate hwalk hl k
  rcases h with hfolder | ⟨folder, n, slash, entry, hparent, hthere, hother, hentry⟩
  · obtain ⟨l, hfind, hl⟩ := isFolder_iff.1 hfolder
    obtain ⟨htaken, left, hwalk⟩ := find_eq_ok_iff.1 hfind
    rw [hjoined, hbase] at hwalk
    obtain ⟨m, rest, hfront, hm, -⟩ :=
      exists_walk_of_append (fun hnil => absurd hnil (Text.splitOn_ne_nil '/' q)) hwalk
    exact .inl (hthrough m rest (checkPath_of_join hp hq htaken) hm hfront)
  · obtain ⟨htaken, hlast, hfolder, left, hwalk⟩ := findParent_eq_ok_iff.1 hparent
    have htaken' := checkPath_of_join hp hq htaken
    cases hsplit : splitLast (p.join q) with
    | mk before last =>
      rw [hsplit] at hlast hwalk
      obtain rfl : last = .name n slash := hlast
      obtain ⟨hname, j, hsame⟩ := splitOn_of_splitLast_name hsplit
      rw [hjoined] at hsame
      rw [hbase] at hwalk
      rcases List.append_eq_append_iff.1 hsame with ⟨more, rfl, -⟩ | ⟨more, hfront, hmore⟩
      · obtain ⟨m, rest, hfront, hm, -⟩ := exists_walk_of_append (fun _ => hfolder) hwalk
        exact .inl (hthrough m rest htaken' hm hfront)
      · cases more with
        | nil =>
          rw [List.append_nil] at hfront
          exact .inl (hthrough folder left htaken' hfolder (hfront ▸ hwalk))
        | cons part more =>
          -- Only empty parts come behind the name, so both paths end in it.
          rw [List.cons_append] at hmore
          obtain ⟨rfl, hempty⟩ := List.cons.inj hmore
          obtain ⟨i, rfl⟩ : ∃ i, more = List.replicate i [] :=
            ⟨_, (List.append_eq_replicate_iff.1 hempty.symm).2.1⟩
          rw [hfront, List.append_assoc, List.cons_append, List.replicate_append_replicate] at hparts
          have hends := splitLast_of_last hparts hname.1
          rw [if_neg hname.2.1, if_neg hname.2.2] at hends
          refine .inr ⟨folder, n, _, entry, findParent_eq_ok_iff.2 ⟨htaken', congrArg Prod.snd hends, hfolder, left,
            ?_⟩, hthere, hother, hentry⟩
          rw [hends]
          exact hwalk

end FileTree

namespace Files

open FileTree (FolderOrTaken AddsFolders)

variable {t u : FileTree} {p current : Path}

/-! ## One folder -/

/-- A folder that is made is new, or nothing changes. -/
theorem createFolder_cases (h : createFolder t p = .ok u) :
    ∃ folder last, t.findParent p = .ok (folder, last) ∧
      (u = t ∧ (∀ n slash, last = .name n slash →
          FileTree.FitsName n ∧ ∃ entry, t.entryAt? (folder ++ [n]) = some entry) ∨
        ∃ n slash, last = .name n slash ∧ FileTree.FitsName n ∧ t.entryAt? (folder ++ [n]) = none ∧
          u = t.put (folder ++ [n]) .folder) := by
  unfold createFolder at h
  cases hmade : t.makeFolder p with
  | error fault =>
    rw [hmade] at h
    cases h
  | ok made =>
    rw [hmade] at h
    obtain rfl : made.getD t = u := Except.ok.inj h
    obtain ⟨folder, last, hparent, ⟨rfl, hthere⟩ | ⟨n, slash, hlast, hfits, hnone, rfl⟩⟩ :=
      FileTree.makeFolder_cases hmade
    · exact ⟨folder, last, hparent, .inl ⟨rfl, hthere⟩⟩
    · exact ⟨folder, last, hparent, .inr ⟨n, slash, hlast, hfits, hnone, rfl⟩⟩

/-- Making a folder adds a folder and nothing else. -/
theorem within_createFolder (h : createFolder t p = .ok u) :
    t.Within u ∧ u.workingFolder = t.workingFolder ∧ AddsFolders t u := by
  obtain ⟨folder, last, -, ⟨rfl, -⟩ | ⟨n, slash, -, -, hnone, rfl⟩⟩ := createFolder_cases h
  · exact ⟨.refl u, rfl, fun _ _ => .inr⟩
  · refine ⟨FileTree.within_put hnone .folder, rfl, fun l entry hentry => ?_⟩
    by_cases hl : l = folder ++ [n]
    · rw [hl, FileTree.entryAt?_put_self (by simp)] at hentry
      exact .inl (Option.some.inj hentry).symm
    · rw [FileTree.entryAt?_put_of_ne hl] at hentry
      exact .inr hentry

/-- Making a folder gives a tree. -/
theorem isTree_createFolder (htree : t.IsTree) (h : createFolder t p = .ok u) : u.IsTree := by
  obtain ⟨folder, last, hparent, ⟨rfl, -⟩ | ⟨n, slash, rfl, hfits, -, rfl⟩⟩ := createFolder_cases h
  · exact htree
  · have hfolder := (FileTree.findParent_eq_ok_iff.1 hparent).2.2.1
    refine htree.put_folder (by simp) (fun m hm => ?_) (by rwa [List.dropLast_concat])
    rcases List.mem_append.1 hm with hm | hm
    · have hroot : folder ≠ [] := List.ne_nil_of_mem hm
      exact (htree.names folder ((FileTree.mem_locations_iff hroot).2 ⟨_, FileTree.isFolderAt_iff.1 hfolder⟩)).2 m hm
    · obtain rfl := List.mem_singleton.1 hm
      exact FileTree.isEntryName_of_findParent hparent hfits

/-- Where a folder was made, a folder stands, or what stood there. -/
theorem folderOrTaken_of_createFolder (htree : t.IsTree) (h : createFolder t p = .ok u) : FolderOrTaken t u p := by
  have htree' := isTree_createFolder htree h
  obtain ⟨hwithin, hworking, -⟩ := within_createFolder h
  obtain ⟨folder, last, hparent, ⟨rfl, hthere⟩ | ⟨n, slash, rfl, hfits, hnone, rfl⟩⟩ := createFolder_cases h
  · by_cases hother : ∃ n slash entry, last = .name n slash ∧ u.entryAt? (folder ++ [n]) = some entry ∧
        entry ≠ .folder
    · obtain ⟨n, slash, entry, rfl, hentry, hne⟩ := hother
      exact .inr ⟨folder, n, slash, entry, hparent, hentry, hne, hentry⟩
    · refine .inl (FileTree.isFolder_of_findParent htree hparent fun n slash hlast => ?_)
      obtain ⟨hfits, entry, hentry⟩ := hthere n slash hlast
      refine ⟨hfits, ?_⟩
      rw [hentry, Option.some.injEq]
      exact Decidable.of_not_not fun hne => hother ⟨n, slash, entry, hlast, hentry, hne⟩
  · refine .inl (FileTree.isFolder_of_findParent htree' (hwithin.findParent hworking hparent) fun n' slash' hlast => ?_)
    obtain ⟨rfl, -⟩ := FileTree.LastPart.name.inj hlast
    exact ⟨hfits, FileTree.entryAt?_put_self (by simp) .folder⟩

/-! ## Chains of folders -/

/-- The paths of the folders of a chain below `current`. -/
def chain (current : Path) : List Path → List Path
  | [] => []
  | folder :: folders => current.join folder :: chain (current.join folder) folders

/-- The deepest folder of a chain is one of it. -/
theorem below_mem_chain (current : Path) {folders : List Path} (h : folders ≠ []) :
    current.below folders ∈ chain current folders := by
  induction folders generalizing current with
  | nil => exact absurd rfl h
  | cons folder folders ih =>
    by_cases hempty : folders = []
    · subst hempty
      exact List.mem_cons_self
    · exact List.mem_cons_of_mem _ (ih (current.join folder) hempty)

/-- Deleting a folder leaves nothing new. -/
theorem left_deleteFolder (htree : t.IsTree) (p : Path) : t.Left (deleteFolder t p).1 := by
  have hleft := FileTree.left_deleteAll htree p
  unfold deleteFolder
  split
  · rename_i heq
    rwa [heq] at hleft
  · rename_i heq
    rwa [heq] at hleft

/-- A chain of folders is made by making the first and then those below it; what stands in the place of the first
may be deleted before. -/
theorem createChain_cons_eq_ok {deletePrevious : Bool} {folder : Path} {folders : List Path}
    (h : createChain deletePrevious t current (folder :: folders) = (u, .ok p)) :
    ∃ cleared made,
      (cleared = t ∧ (deletePrevious = true → t.exists? (current.join folder) = false) ∨
        deletePrevious = true ∧ deleteFolder t (current.join folder) = (cleared, .ok ())) ∧
      createFolder cleared (current.join folder) = .ok made ∧
      createChain deletePrevious made (current.join folder) folders = (u, .ok p) := by
  unfold createChain at h
  dsimp only at h
  split_ifs at h with hdelete
  · rw [Bool.and_eq_true] at hdelete
    cases hdeleted : deleteFolder t (current.join folder) with
    | mk cleared result =>
      rw [hdeleted] at h
      cases result with
      | error e => cases h
      | ok _ =>
        dsimp only at h
        cases hmade : createFolder cleared (current.join folder) with
        | error e =>
          rw [hmade] at h
          cases h
        | ok made =>
          rw [hmade] at h
          exact ⟨cleared, made, .inr ⟨hdelete.2, rfl⟩, hmade, h⟩
  · cases hmade : createFolder t (current.join folder) with
    | error e =>
      rw [hmade] at h
      cases h
    | ok made =>
      rw [hmade] at h
      refine ⟨t, made, .inl ⟨rfl, fun hprevious => Bool.eq_false_iff.2 fun hthere => hdelete ?_⟩, hmade, h⟩
      rw [hthere, hprevious]
      rfl

/-- A chain is made only below a root that is there. -/
theorem createFolders_eq_ok {deletePrevious : Bool} {root : Path} {folders : List Path}
    (h : createFolders t root folders deletePrevious = (u, .ok p)) :
    t.exists? root = true ∧ createChain deletePrevious t root folders = (u, .ok p) := by
  unfold createFolders at h
  by_cases hroot : t.exists? root = true
  · rw [if_pos hroot] at h
    exact ⟨hroot, h⟩
  · rw [if_neg hroot] at h
    cases (Prod.mk.inj h).2

/-- Without deleting, making a chain of folders takes nothing away, whatever comes out. -/
theorem within_createChain (t : FileTree) (current : Path) (folders : List Path) :
    t.Within (createChain false t current folders).1 ∧
      (createChain false t current folders).1.workingFolder = t.workingFolder := by
  induction folders generalizing t current with
  | nil => exact ⟨.refl t, rfl⟩
  | cons folder folders ih =>
    unfold createChain
    simp only [Bool.and_false, Bool.false_eq_true, if_false]
    cases hmade : createFolder t (current.join folder) with
    | error e => exact ⟨.refl t, rfl⟩
    | ok made =>
      obtain ⟨hwithin, hworking, -⟩ := within_createFolder hmade
      obtain ⟨hrest, hsame⟩ := ih made (current.join folder)
      exact ⟨hwithin.trans hrest, hsame.trans hworking⟩

/-- Along a chain that was made, a folder stands at each level, or what stood there. -/
theorem folderOrTaken_of_createChain (htree : t.IsTree) {deletePrevious : Bool} {folders : List Path}
    (hcurrent : current ≠ []) (hrelative : deletePrevious = true → ∀ folder ∈ folders, Path.isAbsolute folder = false)
    (h : createChain deletePrevious t current folders = (u, .ok p)) :
    p = current.below folders ∧ ∀ level ∈ chain current folders, FolderOrTaken t u level := by
  induction folders generalizing t current with
  | nil =>
    obtain ⟨-, hp⟩ := Prod.mk.inj h
    exact ⟨(Except.ok.inj hp).symm, fun level hlevel => by cases hlevel⟩
  | cons folder folders ih =>
    obtain ⟨cleared, made, hcleared, hmade, hrest⟩ := createChain_cons_eq_ok h
    have hleft : t.Left cleared := by
      rcases hcleared with ⟨rfl, -⟩ | ⟨-, hdeleted⟩
      · exact FileTree.left_self htree
      · have hleft := left_deleteFolder htree (current.join folder)
        rwa [hdeleted] at hleft
    obtain ⟨-, -, hadds⟩ := within_createFolder hmade
    have haddsAll : AddsFolders t made := fun l entry hentry =>
      (hadds l entry hentry).imp_right fun hthere => hleft.within l entry hthere
    have hnext := (folderOrTaken_of_createFolder hleft.isTree hmade).mono fun l entry hentry =>
      .inr (hleft.within l entry hentry)
    have hne := Path.join_ne_nil hcurrent folder
    obtain ⟨hp, hlevels⟩ := ih (isTree_createFolder hleft.isTree hmade) hne
      (fun hdelete other hmem => hrelative hdelete other (List.mem_cons_of_mem folder hmem)) hrest
    refine ⟨hp, fun level hlevel => ?_⟩
    rcases List.mem_cons.1 hlevel with rfl | hlevel
    · cases folders with
      | nil =>
        obtain ⟨rfl, -⟩ := Prod.mk.inj hrest
        exact hnext
      | cons below folders =>
        cases deletePrevious with
        | false =>
          obtain ⟨hwithin, hworking⟩ := within_createChain made (current.join folder) (below :: folders)
          rw [hrest] at hwithin hworking
          exact hnext.within hwithin hworking
        | true =>
          -- Later deleting cannot have hit this folder, because the next one was reached through it.
          have hbelow := (hlevels _ List.mem_cons_self).mono haddsAll
          exact hbelow.of_join hne (hrelative rfl below (List.mem_cons_of_mem folder List.mem_cons_self))
    · exact (hlevels level hlevel).mono haddsAll

/-- Making a folder, or a chain of folders below a root, gives folders: after it has succeeded the path given back and
those of all folders of the chain lead to folders.  The only exception is a path under whose last name something
else stands, a file or a link that leads to no folder, which stood there before: nothing is made then, and this is
no failure.

A name that is an absolute path starts again somewhere else, so that deleting what stood there may take folders
that were just made; this is left open. -/
theorem create_gives_folders (htree : t.IsTree) :
    (∀ path made, createFolder t path = .ok made → FolderOrTaken t made path) ∧
    ∀ root folders deletePrevious,
      (deletePrevious = true → ∀ folder ∈ folders, Path.isAbsolute folder = false) →
      ∀ made path, createFolders t root folders deletePrevious = (made, .ok path) →
        path = root.below folders ∧ ∀ level ∈ path :: chain root folders, FolderOrTaken t made level := by
  refine ⟨fun path made => folderOrTaken_of_createFolder htree, ?_⟩
  intro root folders deletePrevious hrelative made path h
  obtain ⟨hroot, h⟩ := createFolders_eq_ok h
  have hne : root ≠ [] := by
    rintro rfl
    cases hroot
  obtain ⟨hpath, hlevels⟩ := folderOrTaken_of_createChain htree hne hrelative h
  refine ⟨hpath, fun level hlevel => ?_⟩
  rcases List.mem_cons.1 hlevel with rfl | hlevel
  · by_cases hempty : folders = []
    · subst hempty
      obtain ⟨rfl, hsame⟩ := Prod.mk.inj h
      obtain rfl := Except.ok.inj hsame
      exact FileTree.folderOrTaken_of_exists? htree hroot
    · exact hlevels level (hpath ▸ below_mem_chain root hempty)
  · exact hlevels level hlevel

/-- A folder with a file in it, and a link that leads to the folder. -/
def stale : FileTree :=
  ⟨[([['a']], .folder), ([['a'], ['x']], .file []), ([['l']], .link ['a'])], []⟩

/-- A folder with something in it is a tree. -/
theorem isTree_stale : stale.IsTree := ⟨by decide, by decide, by decide⟩

/-- A folder is there for each path of a chain that begins with a link, which is deleted and made a folder. -/
theorem create_gives_folders_for_link :
    createFolders stale ['.'] [['l'], ['b']] true =
        (⟨[([['a']], .folder), ([['a'], ['x']], .file []), ([['l']], .folder), ([['l'], ['b']], .folder)], []⟩,
          .ok "./l/b".toList) ∧
      FolderOrTaken stale (createFolders stale ['.'] [['l'], ['b']] true).1 "./l".toList ∧
      FolderOrTaken stale (createFolders stale ['.'] [['l'], ['b']] true).1 "./l/b".toList := by
  have hmade : createFolders stale ['.'] [['l'], ['b']] true =
      (⟨[([['a']], .folder), ([['a'], ['x']], .file []), ([['l']], .folder), ([['l'], ['b']], .folder)], []⟩,
        .ok "./l/b".toList) := by
    decide +kernel
  obtain ⟨-, hlevels⟩ := (create_gives_folders isTree_stale).2 ['.'] [['l'], ['b']] true
    (fun _ => by decide) _ _ hmade
  rw [hmade]
  exact ⟨rfl, hlevels _ (by decide), hlevels _ (by decide)⟩

/-- A tree with a file, and with a link that leads nowhere. -/
def taken : FileTree := ⟨[([['a']], .file []), ([['l']], .link ['x'])], []⟩

/-- Making a folder succeeds where a file stands, and where a link leads nowhere, even if what stood there is to be
deleted; then there is no folder. -/
theorem create_gives_no_folder_if_taken :
    taken.IsTree ∧
      (createFolder taken ['a'] = .ok taken ∧ taken.isFolder ['a'] = false) ∧
      (createFolders taken ['.'] [['a']] false = (taken, .ok "./a".toList) ∧ taken.isFolder "./a".toList = false) ∧
      createFolders taken ['.'] [['l']] true = (taken, .ok "./l".toList) ∧ taken.isFolder "./l".toList = false := by
  refine ⟨⟨by decide, by decide, by decide⟩, ⟨?_, ?_⟩, ⟨?_, ?_⟩, ?_, ?_⟩ <;> decide +kernel

end Files
end Infill
