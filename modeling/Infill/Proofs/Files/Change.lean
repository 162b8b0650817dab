import Infill.Proofs.Files.LastPart

/-!
# Trees after a change

Making a folder adds to a tree, and deleting takes from it (`Within`).  What is left by either is a tree again, so
that changes can follow one another (`IsTree.put_folder`, `left_deleteAll`).
-/

set_option autoImplicit false

namespace Infill.FileTree

variable {t u v : FileTree} {p : Path} {l folder : Location} {n : Text} {slash : Bool} {last : LastPart}

/-! ## Trees inside one another -/

/-- What stands in `t` stands in `u` as well. -/
def Within (t u : FileTree) : Prop := ∀ l entry, t.entryAt? l = some entry → u.entryAt? l = some entry

/-- A tree is within itself. -/
theorem Within.refl (t : FileTree) : t.Within t := fun _ _ h => h

/-- What is within a tree is within every tree that has that one within it. -/
theorem Within.trans (h : t.Within u) (h' : u.Within v) : t.Within v := fun l entry hentry =>
  h' l entry (h l entry hentry)

/-- The larger tree keeps what the smaller one has. -/
theorem Within.keeps (h : t.Within u) : Keeps t u := fun l entry hentry => .inl (h l entry hentry)

/-- An entry where nothing stood makes a tree larger. -/
theorem within_put (h : t.entryAt? l = none) (entry : Entry) : t.Within (t.put l entry) := by
  intro m other hother
  rw [entryAt?_put_of_ne ?_, hother]
  rintro rfl
  rw [h] at hother
  cases hother

/-- Without an entry a tree is smaller. -/
theorem within_remove (t : FileTree) (l : Location) : (t.remove l).Within t := by
  intro m entry hentry
  by_cases hm : m = []
  · subst hm
    exact hentry
  · rw [entryAt?, if_neg hm, remove, Entries.erase, Entries.lookup_keepKeys] at hentry
    split_ifs at hentry
    rwa [entryAt?, if_neg hm]

/-- Without what is inside a folder a tree is smaller. -/
theorem within_clear (t : FileTree) (l : Location) : (t.clear l).Within t := by
  intro m entry hentry
  rw [entryAt?_clear] at hentry
  split_ifs at hentry
  exact hentry

section Within

variable (h : t.Within u) (hworking : u.workingFolder = t.workingFolder)
include h hworking

/-- The folder of the last part is found in the larger tree as well. -/
theorem Within.findParent (hparent : t.findParent p = .ok (folder, last)) : u.findParent p = .ok (folder, last) := by
  obtain ⟨htaken, hlast, hfolder, left, hwalk⟩ := findParent_eq_ok_iff.1 hparent
  refine findParent_eq_ok_iff.2 ⟨htaken, hlast, h.keeps.isFolderAt hfolder, left, ?_⟩
  rw [hworking]
  exact h.keeps.walk hwalk

/-- What a path leads to is found in the larger tree as well. -/
theorem Within.find (hfind : t.find p = .ok l) : u.find p = .ok l := by
  obtain ⟨htaken, left, hwalk⟩ := find_eq_ok_iff.1 hfind
  refine find_eq_ok_iff.2 ⟨htaken, left, ?_⟩
  rw [hworking]
  exact h.keeps.walk hwalk

/-- A folder is one in the larger tree as well. -/
theorem Within.isFolder (hfolder : t.isFolder p = true) : u.isFolder p = true := by
  obtain ⟨l, hfind, hl⟩ := isFolder_iff.1 hfolder
  exact isFolder_iff.2 ⟨l, h.find hworking hfind, h.keeps.isFolderAt hl⟩

end Within

/-! ## Trees after a change -/

section IsTree

variable (h : t.IsTree)
include h

/-- Below what is no folder there is nothing. -/
theorem IsTree.entryAt?_below_eq_none (hfolder : t.isFolderAt l = false) {more : List Text} (hmore : more ≠ []) :
    t.entryAt? (l ++ more) = none := by
  refine Option.eq_none_iff_forall_ne_some.2 fun entry hentry => ?_
  rw [h.isFolderAt_of_append hmore hentry] at hfolder
  cases hfolder

/-- A new folder in a folder makes a tree. -/
theorem IsTree.put_folder (hl : l ≠ []) (hnames : ∀ n ∈ l, IsEntryName n) (hfolder : t.isFolderAt l.dropLast = true) :
    (t.put l .folder).IsTree := by
  have hkeeps : ∀ m, t.isFolderAt m = true → (t.put l .folder).isFolderAt m = true := by
    intro m hm
    rw [isFolderAt_iff] at hm ⊢
    by_cases heq : m = l
    · rw [heq, entryAt?_put_self hl]
    · rw [entryAt?_put_of_ne heq, hm]
  have hnodup : ((Entries.put l Entry.folder t.entries).map Prod.fst).Nodup := Entries.nodup_keys_put l .folder h.nodup
  refine ⟨hnodup, fun m hm => ?_, fun m hm => ?_⟩
  · rcases Entries.mem_keys_put.1 hm with rfl | hm
    · exact ⟨hl, hnames⟩
    · exact h.names m hm
  · rcases Entries.mem_keys_put.1 hm with rfl | hm
    · exact hkeeps _ hfolder
    · exact hkeeps _ (h.folders m hm)

/-- A tree stays one if some of its locations are kept, and with each of them the one above it. -/
theorem IsTree.keepKeys {keep : Location → Bool}
    (hkeep : ∀ l ∈ t.entries.map Prod.fst, keep l = true → l.dropLast ≠ [] → keep l.dropLast = true) :
    IsTree { t with entries := Entries.keepKeys keep t.entries } := by
  have hmem : ∀ m ∈ (Entries.keepKeys keep t.entries).map Prod.fst,
      m ∈ t.entries.map Prod.fst ∧ keep m = true := by
    intro m hm
    rw [Entries.keepKeys_eq_filter, List.mem_map] at hm
    obtain ⟨entry, hentry, rfl⟩ := hm
    obtain ⟨hthere, hkept⟩ := List.mem_filter.1 hentry
    exact ⟨List.mem_map.2 ⟨entry, hthere, rfl⟩, hkept⟩
  refine ⟨h.nodup.sublist ((Entries.sublist_keepKeys _ _).map _), fun m hm => h.names m (hmem m hm).1, fun m hm => ?_⟩
  obtain ⟨hthere, hkept⟩ := hmem m hm
  have hfolder := h.folders m hthere
  rw [isFolderAt_iff] at hfolder ⊢
  by_cases hroot : m.dropLast = []
  · rw [hroot]
    rfl
  · rw [entryAt?, if_neg hroot] at hfolder ⊢
    rw [Entries.lookup_keepKeys, if_pos (hkeep m hthere hkept hroot), hfolder]

/-- What has nothing in it can be removed. -/
theorem IsTree.remove (hbelow : ∀ n, t.entryAt? (l ++ [n]) = none) : (t.remove l).IsTree := by
  refine h.keepKeys fun m hm _ _ => ?_
  have hne : m.dropLast ≠ l := by
    rintro rfl
    obtain ⟨hroot, -⟩ := h.names m hm
    obtain ⟨entry, hentry⟩ := (mem_locations_iff hroot).1 hm
    have hnone := hbelow (m.getLast hroot)
    rw [List.dropLast_append_getLast, hentry] at hnone
    cases hnone
  simpa using hne

/-- Any folder can be cleared. -/
theorem IsTree.clear (l : Location) : (t.clear l).IsTree := by
  refine h.keepKeys fun m _ hm _ => ?_
  rw [Bool.not_eq_true', Bool.eq_false_iff, Ne, isBelow_iff] at hm ⊢
  rintro ⟨habove, hne⟩
  refine hm ⟨habove.trans (List.dropLast_prefix m), ?_⟩
  rintro rfl
  have hlength := habove.length_le
  rw [List.length_dropLast] at hlength
  refine hne (habove.eq_of_length ?_)
  rw [List.length_dropLast]
  omega

/-! ## Deleting -/

/-- What deleting leaves: nothing is new, and it is a tree. -/
structure Left (t u : FileTree) : Prop where
  within : u.Within t
  isTree : u.IsTree
  workingFolder : u.workingFolder = t.workingFolder

/-- Nothing needs to be deleted. -/
theorem left_self : t.Left t := ⟨.refl t, h, rfl⟩

/-- Clearing leaves a tree. -/
theorem left_clear (l : Location) : t.Left (t.clear l) := ⟨within_clear t l, h.clear l, rfl⟩

/-- Removing what has nothing in it leaves a tree. -/
theorem left_remove (hbelow : ∀ n, t.entryAt? (l ++ [n]) = none) : t.Left (t.remove l) :=
  ⟨within_remove t l, h.remove hbelow, rfl⟩

/-- Deleting a file leaves a tree. -/
theorem left_deleteFile (hdelete : t.deleteFile p = .ok u) : t.Left u := by
  unfold deleteFile at hdelete
  obtain ⟨⟨folder, last⟩, -, hdelete⟩ := Result.bind_eq_ok.1 hdelete
  match last with
  | .root | .current | .parent => cases hdelete
  | .name n slash =>
    obtain ⟨entry, hlookUp, hdelete⟩ := Result.bind_eq_ok.1 hdelete
    have hentry : t.entryAt? (folder ++ [n]) = entry := by
      unfold lookUp at hlookUp
      split_ifs at hlookUp
      exact Except.ok.inj hlookUp
    have hremove : t.isFolderAt (folder ++ [n]) = false → t.Left (t.remove (folder ++ [n])) := fun hfolder =>
      left_remove h fun m => h.entryAt?_below_eq_none hfolder (List.cons_ne_nil m [])
    match entry, hdelete with
    | some (.file content), hdelete | some (.link target), hdelete =>
      dsimp only at hdelete
      split_ifs at hdelete
      obtain rfl := Except.ok.inj hdelete
      exact hremove (by simp [isFolderAt, hentry])

/-- Deleting a folder that is empty leaves a tree. -/
theorem left_deleteFolder (hdelete : t.deleteFolder p = .ok u) : t.Left u := by
  unfold deleteFolder at hdelete
  obtain ⟨⟨folder, last⟩, -, hdelete⟩ := Result.bind_eq_ok.1 hdelete
  match last with
  | .root | .current | .parent => cases hdelete
  | .name n slash =>
    obtain ⟨entry, -, hdelete⟩ := Result.bind_eq_ok.1 hdelete
    match entry, hdelete with
    | some .folder, hdelete =>
      dsimp only at hdelete
      split_ifs at hdelete with hempty
      obtain rfl := Except.ok.inj hdelete
      refine left_remove h fun m => Option.eq_none_iff_forall_ne_some.2 fun entry hentry => ?_
      rw [List.isEmpty_iff, List.eq_nil_iff_forall_not_mem] at hempty
      exact hempty m (mem_namesIn_iff.2 ⟨entry, hentry⟩)

/-- Whatever deleting all comes to, nothing is new. -/
theorem left_deleteAll (p : Path) : t.Left (t.deleteAll p).1 := by
  unfold deleteAll
  split
  · exact left_self h
  · exact left_self h
  · split
    · rename_i hdelete
      exact left_deleteFile h hdelete
    · exact left_self h
  · rename_i l _
    have hcleared := left_clear h l
    dsimp only
    split
    · rename_i hdelete
      have hdeleted := left_deleteFolder hcleared.isTree hdelete
      exact ⟨hdeleted.within.trans hcleared.within, hdeleted.isTree, hdeleted.workingFolder⟩
    · exact hcleared
    · exact hcleared

end IsTree

/-! ## Making one folder -/

/-- A folder is made where nothing stands under the last name of a path. -/
theorem makeFolder_cases {made : Option FileTree} (h : t.makeFolder p = .ok made) :
    ∃ folder last, t.findParent p = .ok (folder, last) ∧
      (made = none ∧ (∀ n slash, last = .name n slash →
          FitsName n ∧ ∃ entry, t.entryAt? (folder ++ [n]) = some entry) ∨
        ∃ n slash, last = .name n slash ∧ FitsName n ∧ t.entryAt? (folder ++ [n]) = none ∧
          made = some (t.put (folder ++ [n]) .folder)) := by
  unfold makeFolder at h
  obtain ⟨⟨folder, last⟩, hparent, h⟩ := Result.bind_eq_ok.1 h
  refine ⟨folder, last, hparent, ?_⟩
  match last with
  | .root | .current | .parent =>
    obtain rfl := Except.ok.inj h
    exact .inl ⟨rfl, fun _ _ hname => by cases hname⟩
  | .name n slash =>
    obtain ⟨entry, hlookUp, h⟩ := Result.bind_eq_ok.1 h
    have hfits : FitsName n := by
      refine Decidable.of_not_not fun hlong => ?_
      rw [lookUp_of_not_fitsName t folder hlong] at hlookUp
      cases hlookUp
    rw [lookUp_of_fitsName t folder hfits] at hlookUp
    obtain rfl := Except.ok.inj hlookUp
    cases hentry : t.entryAt? (folder ++ [n]) with
    | some entry =>
      rw [hentry] at h
      obtain rfl := Except.ok.inj h
      refine .inl ⟨rfl, fun n' slash' hname => ?_⟩
      obtain ⟨rfl, rfl⟩ := LastPart.name.inj hname
      exact ⟨hfits, entry, hentry⟩
    | none =>
      rw [hentry] at h
      obtain rfl := Except.ok.inj h
      exact .inr ⟨n, slash, rfl, hfits, hentry, rfl⟩

/-- A name at the end of a path is one that the system gives to entries. -/
theorem isEntryName_of_findParent (h : t.findParent p = .ok (folder, .name n slash)) (hfits : FitsName n) :
    IsEntryName n := by
  obtain ⟨htaken, hlast, -⟩ := findParent_eq_ok_iff.1 h
  obtain ⟨hname, k, hparts⟩ := splitOn_of_splitLast_name (Prod.ext rfl hlast : splitLast p = (_, .name n slash))
  obtain ⟨hslash, hsub⟩ := Text.mem_splitOn (hparts ▸ List.mem_append_right _ List.mem_cons_self)
  exact ⟨hname, hfits, hslash, fun hzero => (checkPath_eq_ok_iff.1 htaken).1 (hsub hzero)⟩

end Infill.FileTree
