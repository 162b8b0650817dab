import Infill.Files.EmptyFolders
import Infill.Proofs.Files.Pruned

/-!
# Paths that end in a name

A path that ends in a name stands for one location, at which the name is to be looked up (`Names`).  What
stands inside a folder is named by the path of the folder with a name behind it (`Names.join`), as long as the
system takes that path.  A tree that keeps less may lose the way to a location, but no path leads to another one
there (`Names.of_find`).
-/

set_option autoImplicit false

namespace Infill.FileTree

variable {t u : FileTree} {p : Path} {l m : Location} {n : Text}

/-! ## Paths that the system takes -/

/-- The system takes a path that has no zero character, is not empty and is not too long. -/
theorem checkPath_eq_ok_iff :
    checkPath p = .ok () ↔ '\x00' ∉ p ∧ p ≠ [] ∧ (Utf8.encode p).length ≤ pathLimit := by
  unfold checkPath
  rw [List.elem_eq_mem]
  split_ifs <;> simp_all

/-- A path that is refused for its length is longer than the system takes. -/
theorem lt_of_checkPath_eq_nameTooLong (h : checkPath p = .error .nameTooLong) :
    pathLimit < (Utf8.encode p).length := by
  unfold checkPath at h
  split_ifs at h with hzero hempty hlong
  · cases h
  · cases h
  · exact hlong

/-- With a name more the system takes a path that it takes, if that is not too long then. -/
theorem checkPath_join (htaken : checkPath p = .ok ()) (hname : IsEntryName n)
    (hlength : (Utf8.encode (p.join n)).length ≤ pathLimit) : checkPath (p.join n) = .ok () := by
  obtain ⟨hzero, -, -⟩ := checkPath_eq_ok_iff.1 htaken
  have hempty : n ≠ [] := hname.isName.1
  refine checkPath_eq_ok_iff.2 ⟨?_, ?_, hlength⟩
  · unfold Path.join
    split_ifs <;> simp [hzero, hname.noZero]
  · unfold Path.join
    split_ifs <;> simp [hempty]

/-! ## Names -/

/-- A path ends in a name that is to be looked up at `l`. -/
def Names (t : FileTree) (p : Path) (l : Location) : Prop :=
  ∃ folder n left, t.EndsIn linkLimit t.workingFolder p folder n left ∧ l = folder ++ [n]

/-- Where a path is found its parts lead. -/
theorem exists_walk_of_find (h : t.find p = .ok l) : checkPath p = .ok () ∧
    ∃ left, t.walk linkLimit (baseOf t.workingFolder p) (Text.splitOn '/' p) = .ok (l, left) := by
  obtain ⟨_, htaken, h⟩ := Result.bind_eq_ok.1 h
  obtain ⟨⟨l', left⟩, hwalk, h⟩ := Result.bind_eq_ok.1 h
  obtain rfl : l' = l := Except.ok.inj h
  exact ⟨htaken, left, hwalk⟩

/-- A walk comes to its last part in a folder. -/
theorem exists_walk_of_append_singleton {budget : Nat} {here : Location} {before : List Text} {r : Location × Nat}
    (h : t.walk budget here (before ++ [n]) = .ok r) :
    ∃ folder left, t.walk budget here before = .ok (folder, left) ∧ t.isFolderAt folder = true := by
  rw [walk_append] at h
  obtain ⟨⟨folder, left⟩, hbefore, hlast⟩ := Result.bind_eq_ok.1 h
  obtain ⟨follow, hfollow⟩ := t.exists_walk_eq_walkParts left folder [n]
  dsimp only at hlast
  rw [hfollow] at hlast
  exact ⟨folder, left, hbefore, isFolderAt_of_walkParts_cons hlast⟩

namespace Names

/-- Under a name no path stands for the root. -/
theorem ne_nil (h : t.Names p l) : l ≠ [] := by
  obtain ⟨folder, n, left, -, rfl⟩ := h
  simp

/-- A path that ends in a name stands for the same location in a tree that keeps more. -/
theorem keeps (h : t.Names p l) (hkeeps : Keeps t u) (hworking : u.workingFolder = t.workingFolder) :
    u.Names p l := by
  obtain ⟨folder, n, left, hends, rfl⟩ := h
  refine ⟨folder, n, left, ?_, rfl⟩
  rw [hworking]
  exact hends.keeps hkeeps

/-- A folder is found under its path. -/
theorem find (h : t.Names p l) (hfolder : t.isFolderAt l = true) : t.find p = .ok l := by
  obtain ⟨folder, n, left, hends, rfl⟩ := h
  exact find_of_walk hends.taken (hends.walk_of_entry (isFolderAt_iff.1 hfolder) (by simp))

/-- In a folder a name more leads to what stands under it. -/
theorem join (h : t.Names p l) (hfolder : t.isFolderAt l = true) (hname : IsEntryName n)
    (htaken : checkPath (p.join n) = .ok ()) : t.Names (p.join n) (l ++ [n]) := by
  obtain ⟨folder, last, left, hends, rfl⟩ := h
  obtain ⟨before, hparts, -⟩ := hends.arrives
  have habsolute : Path.isAbsolute n = false := by
    refine Bool.eq_false_iff.2 fun hhead => hname.noSlash ?_
    exact List.mem_of_mem_head? (beq_iff_eq.1 hhead)
  have hjoin : p.join n = p ++ '/' :: n := Path.join_of_splitOn hparts hends.isName.1 habsolute
  have hbase : baseOf t.workingFolder (p.join n) = baseOf t.workingFolder p := by
    have hempty : p ≠ [] := by
      rintro rfl
      cases hends.taken
    obtain ⟨c, p, rfl⟩ := List.exists_cons_of_ne_nil hempty
    rw [hjoin]
    rfl
  have hsplit : Text.splitOn '/' (p.join n) = Text.splitOn '/' p ++ [n] := by
    rw [hjoin, Text.splitOn_append, Text.splitOn_of_not_mem hname.noSlash]
  have hwalk := hends.walk_of_entry (isFolderAt_iff.1 hfolder) (by simp)
  exact ⟨_, n, left, ⟨htaken, hname.isName, hname.fits, hfolder, _, hsplit, hbase ▸ hwalk⟩, rfl⟩

/-- If what is kept of a tree lets a path through, the path stands for what it stood for. -/
theorem of_find (h : t.Names p l) (hfolder : t.isFolderAt l = true) (hkeeps : Keeps u t)
    (hworking : u.workingFolder = t.workingFolder) (hfind : u.find p = .ok m) : m = l ∧ u.Names p l := by
  obtain ⟨htaken, rest, hwalk⟩ := exists_walk_of_find hfind
  have hlocation : m = l := by
    have hthere := find_of_walk htaken (hworking ▸ hkeeps.walk hwalk)
    rw [h.find hfolder] at hthere
    exact (Except.ok.inj hthere).symm
  refine ⟨hlocation, ?_⟩
  obtain ⟨folder, n, left, hends, rfl⟩ := h
  obtain ⟨before, hparts, hbefore⟩ := hends.arrives
  rw [hparts] at hwalk
  obtain ⟨folder', left', hfront, hthere⟩ := exists_walk_of_append_singleton hwalk
  obtain ⟨rfl, rfl⟩ : folder' = folder ∧ left' = left := by
    have hsame := hkeeps.walk hfront
    rw [hworking, hbefore] at hsame
    exact Prod.mk.inj (Except.ok.inj hsame.symm)
  exact ⟨folder', n, left', ⟨htaken, hends.isName, hends.fits, hthere, before, hparts, hfront⟩, rfl⟩

end Names

/-! ## What a path names -/

/-- A path whose last part is a name ends in that name. -/
theorem splitLast_of_splitOn {before : List Text} (hparts : Text.splitOn '/' p = before ++ [n])
    (hname : Path.IsName n) : splitLast p = (before, .name n false) := by
  obtain ⟨hempty, hcurrent, hparent⟩ := hname
  unfold splitLast
  simp [hparts, hempty, hcurrent, hparent]

/-- The last name of a path is looked up in the folder in which the path ends. -/
theorem findParent_of_endsIn {folder : Location} {left : Nat}
    (h : t.EndsIn linkLimit t.workingFolder p folder n left) : t.findParent p = .ok (folder, .name n false) := by
  obtain ⟨before, hparts, hwalk⟩ := h.arrives
  unfold findParent findParentFrom
  rw [splitLast_of_splitOn hparts h.isName, h.taken]
  simp only [bind, Except.bind, hwalk, h.isFolderAt, if_true, Except.map]

/-- Conversely, a path ends in the folder in which its last name is looked up. -/
theorem exists_endsIn_of_findParent {folder : Location} (h : t.findParent p = .ok (folder, .name n false))
    (hfits : FitsName n) : ∃ left, t.EndsIn linkLimit t.workingFolder p folder n left := by
  unfold findParent at h
  cases hparent : findParentFrom t linkLimit t.workingFolder p with
  | error fault =>
    rw [hparent] at h
    cases h
  | ok found =>
    obtain ⟨folder', last, left⟩ := found
    rw [hparent] at h
    obtain ⟨rfl, rfl⟩ := Prod.mk.inj (Except.ok.inj h)
    exact ⟨left, endsIn_of_findParentFrom hparent hfits⟩

/-- Where a path is found, the folder is found in which its last name is to be looked up. -/
theorem exists_findParent_of_find {before : List Text} (hlast : splitLast p = (before, .name n false))
    (h : t.find p = .ok l) : ∃ folder, t.findParent p = .ok (folder, .name n false) := by
  obtain ⟨htaken, _, hwalk⟩ := exists_walk_of_find h
  rw [(splitOn_of_splitLast hlast).1] at hwalk
  obtain ⟨folder, left, hbefore, hfolder⟩ := exists_walk_of_append_singleton hwalk
  refine ⟨folder, ?_⟩
  unfold findParent findParentFrom
  rw [hlast, htaken]
  simp only [bind, Except.bind, hbefore, hfolder, if_true, Except.map]

/-- What a path names that ends in a name stands at the location of the name. -/
theorem names_of_entryNamed {before : List Text} (hlast : splitLast p = (before, .name n false)) {entry : Entry}
    (h : t.entryNamed p = .ok (l, entry)) : t.Names p l ∧ t.entryAt? l = some entry := by
  unfold entryNamed at h
  dsimp only at h
  split at h
  · rename_i folder name hparent
    obtain ⟨found, hlookUp, h⟩ := Result.bind_eq_ok.1 h
    obtain ⟨rfl, rfl⟩ : folder ++ [name] = l ∧ found = some entry := by
      cases found with
      | none => cases h
      | some other =>
        obtain ⟨rfl, rfl⟩ := Prod.mk.inj (Except.ok.inj h)
        exact ⟨rfl, rfl⟩
    by_cases hfits : FitsName name
    · obtain ⟨left, hends⟩ := exists_endsIn_of_findParent hparent hfits
      rw [lookUp_of_fitsName t folder hfits] at hlookUp
      exact ⟨⟨folder, name, left, hends, rfl⟩, Except.ok.inj hlookUp⟩
    · rw [lookUp_of_not_fitsName t folder hfits] at hlookUp
      cases hlookUp
  · rename_i hother
    obtain ⟨location, hfind, -⟩ := Result.bind_eq_ok.1 h
    obtain ⟨folder, hparent⟩ := exists_findParent_of_find hlast hfind
    exact absurd hparent (hother folder n)

/-- What stands under the last name is what the path names. -/
theorem entryNamed_of_endsIn {folder : Location} {left : Nat} {entry : Entry}
    (h : t.EndsIn linkLimit t.workingFolder p folder n left) (hentry : t.entryAt? (folder ++ [n]) = some entry) :
    t.entryNamed p = .ok (folder ++ [n], entry) := by
  unfold entryNamed
  rw [findParent_of_endsIn h]
  simp only [bind, Except.bind, lookUp_of_fitsName t folder h.fits, hentry]
  rfl

/-- Only an empty folder is deleted. -/
theorem Names.deleteFolder (h : t.Names p l) (hfolder : t.isFolderAt l = true) :
    t.deleteFolder p = if (t.namesIn l).isEmpty then .ok (t.remove l) else .error .notEmpty := by
  obtain ⟨folder, n, left, hends, rfl⟩ := h
  unfold FileTree.deleteFolder
  rw [findParent_of_endsIn hends]
  simp only [bind, Except.bind, lookUp_of_fitsName t folder hends.fits, isFolderAt_iff.1 hfolder]

/-- A path is opened where it leads to a folder. -/
theorem openFolder_eq_ok_iff : t.openFolder p = .ok l ↔ t.find p = .ok l ∧ t.isFolderAt l = true := by
  unfold openFolder
  cases t.find p with
  | error fault => simp [bind, Except.bind]
  | ok m =>
    simp only [bind, Except.bind, Except.ok.injEq]
    constructor
    · intro h
      split_ifs at h with hfolder
      obtain rfl := Except.ok.inj h
      exact ⟨rfl, hfolder⟩
    · rintro ⟨rfl, hfolder⟩
      exact if_pos hfolder

/-- A folder that is found is opened. -/
theorem openFolder_of_find (h : t.find p = .ok l) (hfolder : t.isFolderAt l = true) : t.openFolder p = .ok l :=
  openFolder_eq_ok_iff.2 ⟨h, hfolder⟩

/-- A path that the system does not take leads nowhere. -/
theorem find_of_checkPath {fault : SystemFault} (h : checkPath p = .error fault) : t.find p = .error fault := by
  rw [find_eq, h]
  rfl

/-- A path that the system does not take is not opened. -/
theorem openFolder_of_checkPath {fault : SystemFault} (h : checkPath p = .error fault) :
    t.openFolder p = .error fault := by
  unfold openFolder
  rw [find_of_checkPath h]
  rfl

end Infill.FileTree
