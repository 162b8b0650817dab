import Infill.Proofs.Files.EmptyFolders
import Mathlib.Data.List.Flatten

/-!
# The last part of a path

A path that is changed is taken apart before its last part that is not empty: what stands before that leads to a
folder (`findParent_eq_ok_iff`), and in that folder the last part is to be looked up.  The path itself leads to a
folder, if a folder stands under its last name (`isFolder_of_findParent`); and if it leads to something else,
something else stands there as well, be it a link (`exists_findParent_of_not_folder`).
-/

set_option autoImplicit false

namespace Infill.FileTree

variable {t : FileTree} {p : Path} {l folder : Location} {n : Text} {slash : Bool} {last : LastPart}

/-! ## The last part of a path -/

/-- Behind the last part of a path that is not empty there are empty ones only. -/
theorem exists_replicate_or_last (parts : List Text) :
    (∃ k, parts = List.replicate k []) ∨
      ∃ before last k, parts = before ++ last :: List.replicate k [] ∧ last ≠ [] := by
  induction parts using List.reverseRecOn with
  | nil => exact .inl ⟨0, rfl⟩
  | append_singleton parts part ih =>
    by_cases hpart : part = []
    · subst hpart
      rcases ih with ⟨k, rfl⟩ | ⟨before, last, k, rfl, hlast⟩
      · exact .inl ⟨k + 1, List.replicate_succ'.symm⟩
      · exact .inr ⟨before, last, k + 1, by rw [List.replicate_succ', List.append_assoc, List.cons_append], hlast⟩
    · exact .inr ⟨parts, part, 0, rfl, hpart⟩

/-- A path of slashes alone is the root. -/
theorem splitLast_of_replicate {k : Nat} (hparts : Text.splitOn '/' p = List.replicate k []) :
    splitLast p = ([], .root) := by
  unfold splitLast
  simp [hparts]

/-- The last part that is not empty is the last one, and before it come those before it. -/
theorem splitLast_of_last {before : List Text} {last : Text} {k : Nat}
    (hparts : Text.splitOn '/' p = before ++ last :: List.replicate k []) (hlast : last ≠ []) :
    splitLast p = (before, if last = ['.'] then .current else if last = ['.', '.'] then .parent
      else .name last (decide (k ≠ 0))) := by
  have hbackwards : (Text.splitOn '/' p).reverse = List.replicate k [] ++ last :: before.reverse := by
    simp [hparts]
  have hhead : ((List.replicate k [] ++ last :: before.reverse).head? == some []) = decide (k ≠ 0) := by
    cases k with
    | zero => simp [hlast]
    | succ k => simp [List.replicate_succ]
  have hdrop : (List.replicate k [] ++ last :: before.reverse).dropWhile (·.isEmpty) = last :: before.reverse := by
    rw [List.dropWhile_append_of_pos (by simp)]
    simp [hlast]
  unfold splitLast
  dsimp only
  rw [hbackwards, hdrop, hhead]
  simp

/-- A path that ends in a name has empty parts only behind it. -/
theorem splitOn_of_splitLast_name {before : List Text} (h : splitLast p = (before, .name n slash)) :
    Path.IsName n ∧ ∃ k, Text.splitOn '/' p = before ++ n :: List.replicate k [] := by
  rcases exists_replicate_or_last (Text.splitOn '/' p) with ⟨k, hparts⟩ | ⟨before', last, k, hparts, hlast⟩
  · rw [splitLast_of_replicate hparts] at h
    cases h
  · rw [splitLast_of_last hparts hlast] at h
    obtain ⟨rfl, hname⟩ := Prod.mk.inj h
    split_ifs at hname with hcurrent hparent
    obtain ⟨rfl, -⟩ := LastPart.name.inj hname
    exact ⟨⟨hlast, hcurrent, hparent⟩, k, hparts⟩

/-! ## Walks that go on -/

/-- A walk that goes on, or ends in a folder, comes to a folder first. -/
theorem exists_walk_of_append {budget : Nat} {here : Location} {parts more : List Text} {r : Location × Nat}
    (hmore : more = [] → t.isFolderAt r.1 = true) (h : t.walk budget here (parts ++ more) = .ok r) :
    ∃ l left, t.walk budget here parts = .ok (l, left) ∧ t.isFolderAt l = true ∧ t.walk left l more = .ok r := by
  rw [walk_append] at h
  obtain ⟨⟨l, left⟩, hparts, h⟩ := Result.bind_eq_ok.1 h
  dsimp only at h
  refine ⟨l, left, hparts, ?_, h⟩
  obtain ⟨follow, hfollow⟩ := t.exists_walk_eq_walkParts left l more
  rw [hfollow] at h
  cases more with
  | nil =>
    obtain rfl : (l, left) = r := Except.ok.inj h
    exact hmore rfl
  | cons part more => exact isFolderAt_of_walkParts_cons h

/-- Slashes behind the path of a folder make no difference. -/
theorem walk_append_replicate {budget left : Nat} {here : Location} {parts : List Text}
    (h : t.walk budget here parts = .ok (l, left)) (hfolder : t.isFolderAt l = true) (k : Nat) :
    t.walk budget here (parts ++ List.replicate k []) = .ok (l, left) := by
  obtain ⟨follow, hfollow⟩ := t.exists_walk_eq_walkParts left l (List.replicate k [])
  rw [walk_append, h]
  exact hfollow.trans (walkParts_replicate_nil hfolder k)

/-- A walk goes on along a name only if something stands under it. -/
theorem exists_entry_of_walk_cons {budget : Nat} {here : Location} {rest : List Text} {r : Location × Nat}
    (hname : Path.IsName n) (h : t.walk budget here (n :: rest) = .ok r) :
    FitsName n ∧ ∃ entry, t.entryAt? (here ++ [n]) = some entry := by
  obtain ⟨follow, hfollow⟩ := t.exists_walk_eq_walkParts budget here (n :: rest)
  rw [hfollow] at h
  rw [walkParts_cons_of_isName (isFolderAt_of_walkParts_cons h) hname] at h
  have hfits : FitsName n := by
    refine Decidable.of_not_not fun hlong => ?_
    rw [lookUp_of_not_fitsName t here hlong] at h
    cases h
  refine ⟨hfits, Option.ne_none_iff_exists'.1 fun hnone => ?_⟩
  rw [lookUp_of_fitsName t here hfits, hnone] at h
  cases h

/-- A path leads to a folder if it is found there. -/
theorem isFolder_iff : t.isFolder p = true ↔ ∃ l, t.find p = .ok l ∧ t.isFolderAt l = true := by
  unfold isFolder
  cases t.find p <;> simp

/-- A path is found where its parts lead, if the system takes it. -/
theorem find_eq_ok_iff : t.find p = .ok l ↔ checkPath p = .ok () ∧
    ∃ left, t.walk linkLimit (baseOf t.workingFolder p) (Text.splitOn '/' p) = .ok (l, left) :=
  ⟨exists_walk_of_find, fun ⟨htaken, _, hwalk⟩ => find_of_walk htaken hwalk⟩

/-- The folder of the last part is where the parts before it lead. -/
theorem findParentFrom_eq_ok_iff {budget left : Nat} {here : Location} :
    t.findParentFrom budget here p = .ok (folder, last, left) ↔
      checkPath p = .ok () ∧ (splitLast p).2 = last ∧ t.isFolderAt folder = true ∧
        t.walk budget (baseOf here p) (splitLast p).1 = .ok (folder, left) := by
  unfold findParentFrom
  cases splitLast p with
  | mk before last' =>
    constructor
    · intro h
      obtain ⟨⟨⟩, htaken, h⟩ := Result.bind_eq_ok.1 h
      obtain ⟨⟨l, rest⟩, hwalk, h⟩ := Result.bind_eq_ok.1 h
      dsimp only at h
      split_ifs at h with hfolder
      obtain ⟨rfl, rfl, rfl⟩ : l = folder ∧ last' = last ∧ rest = left := by simpa using h
      exact ⟨htaken, rfl, hfolder, hwalk⟩
    · rintro ⟨htaken, rfl, hfolder, hwalk⟩
      exact Result.bind_eq_ok.2 ⟨(), htaken, Result.bind_eq_ok.2 ⟨_, hwalk, if_pos hfolder⟩⟩

/-- From the working folder as well. -/
theorem findParent_eq_ok_iff : t.findParent p = .ok (folder, last) ↔
    checkPath p = .ok () ∧ (splitLast p).2 = last ∧ t.isFolderAt folder = true ∧
      ∃ left, t.walk linkLimit (baseOf t.workingFolder p) (splitLast p).1 = .ok (folder, left) := by
  have hfrom : t.findParent p = .ok (folder, last) ↔
      ∃ left, t.findParentFrom linkLimit t.workingFolder p = .ok (folder, last, left) := by
    unfold findParent
    cases t.findParentFrom linkLimit t.workingFolder p with
    | error fault => simp [Except.map]
    | ok r => simp [Except.map, Prod.ext_iff]
  simp only [hfrom, findParentFrom_eq_ok_iff, exists_and_left]

/-! ## Joined paths -/

variable {q : Path}

/-- A path starts where it starts with another one behind it. -/
theorem baseOf_join (here : Location) (hp : p ≠ []) (hq : Path.isAbsolute q = false) :
    baseOf here (p.join q) = baseOf here p := by
  unfold baseOf
  rw [Path.isAbsolute_join hp hq]

/-- The system takes a path from which something was left out, if it takes the whole. -/
theorem checkPath_of_sublist (h : p.Sublist q) (hp : p ≠ []) (hq : checkPath q = .ok ()) : checkPath p = .ok () := by
  obtain ⟨hzero, -, hlength⟩ := checkPath_eq_ok_iff.1 hq
  have hshorter : (Utf8.encode p).length ≤ (Utf8.encode q).length := (h.flatMap String.utf8EncodeChar).length_le
  exact checkPath_eq_ok_iff.2 ⟨fun hmem => hzero (h.subset hmem), hp, Nat.le_trans hshorter hlength⟩

/-- The system takes a path if it takes that with another one behind it. -/
theorem checkPath_of_join (hp : p ≠ []) (hq : Path.isAbsolute q = false) (h : checkPath (p.join q) = .ok ()) :
    checkPath p = .ok () := by
  obtain ⟨more, hjoin⟩ := Path.exists_join_eq_append (p := p) hq
  rw [hjoin] at h
  exact checkPath_of_sublist (List.sublist_append_left p more) hp h

/-! ## What a path with something at its end leads to -/

/-- Above a folder stands a folder. -/
theorem IsTree.isFolderAt_dropLast (h : t.IsTree) (hfolder : t.isFolderAt l = true) :
    t.isFolderAt l.dropLast = true := by
  by_cases hl : l = []
  · rw [hl]
    rfl
  · exact h.folders l ((mem_locations_iff hl).2 ⟨_, isFolderAt_iff.1 hfolder⟩)

/-- The last part of a path leads from one folder to another, if it is no name, or if a folder stands under it. -/
theorem exists_walk_last (htree : t.IsTree) (hfolder : t.isFolderAt folder = true) {part : Text}
    (hpart : Path.IsName part → FitsName part ∧ t.entryAt? (folder ++ [part]) = some .folder) (left k : Nat) :
    ∃ l, t.isFolderAt l = true ∧ t.walk left folder (part :: List.replicate k []) = .ok (l, left) := by
  obtain ⟨follow, hfollow⟩ := t.exists_walk_eq_walkParts left folder (part :: List.replicate k [])
  rw [hfollow]
  by_cases hname : Path.IsName part
  · obtain ⟨hfits, hentry⟩ := hpart hname
    have hthere := isFolderAt_iff.2 hentry
    refine ⟨folder ++ [part], hthere, ?_⟩
    rw [walkParts_cons_of_isName hfolder hname, lookUp_of_fitsName t folder hfits, hentry]
    exact walkParts_replicate_nil hthere k
  · have hthere : t.isFolderAt (if part = ['.', '.'] then folder.dropLast else folder) = true := by
      split_ifs
      · exact htree.isFolderAt_dropLast hfolder
      · exact hfolder
    refine ⟨_, hthere, ?_⟩
    rw [walkParts_cons_of_not_isName hfolder hname]
    exact walkParts_replicate_nil hthere k

/-- A path leads to a folder, if a folder stands under its last name, or if it does not end in a name. -/
theorem isFolder_of_findParent (htree : t.IsTree) (h : t.findParent p = .ok (folder, last))
    (hlast : ∀ n slash, last = .name n slash → FitsName n ∧ t.entryAt? (folder ++ [n]) = some .folder) :
    t.isFolder p = true := by
  obtain ⟨htaken, hsplit, hfolder, left, hwalk⟩ := findParent_eq_ok_iff.1 h
  refine isFolder_iff.2 ?_
  rcases exists_replicate_or_last (Text.splitOn '/' p) with ⟨k, hparts⟩ | ⟨before, part, k, hparts, hpart⟩
  · rw [splitLast_of_replicate hparts] at hwalk
    have hall := walk_append_replicate hwalk hfolder k
    rw [List.nil_append, ← hparts] at hall
    exact ⟨folder, find_of_walk htaken hall, hfolder⟩
  · rw [splitLast_of_last hparts hpart] at hwalk hsplit
    have hname : Path.IsName part → FitsName part ∧ t.entryAt? (folder ++ [part]) = some .folder := by
      rintro ⟨-, hcurrent, hparent⟩
      rw [if_neg hcurrent, if_neg hparent] at hsplit
      exact hlast part _ hsplit.symm
    obtain ⟨l, hl, hrest⟩ := exists_walk_last htree hfolder hname left k
    refine ⟨l, find_eq_ok_iff.2 ⟨htaken, left, ?_⟩, hl⟩
    rw [hparts, walk_append, hwalk]
    exact hrest

/-- What is no folder, but is found under a path, stands under its last name, or a link does that leads there. -/
theorem exists_findParent_of_not_folder (htree : t.IsTree) (h : t.find p = .ok l) (hl : t.isFolderAt l = false) :
    ∃ folder n slash entry, t.findParent p = .ok (folder, .name n slash) ∧
      t.entryAt? (folder ++ [n]) = some entry ∧ entry ≠ .folder := by
  obtain ⟨htaken, left, hwalk⟩ := find_eq_ok_iff.1 h
  have hnot : ∀ {m : Location} {rest : Nat}, t.isFolderAt m = true → ¬ (l, left) = (m, rest) := by
    rintro m rest hm heq
    rw [(Prod.mk.inj heq).1, hm] at hl
    cases hl
  rcases exists_replicate_or_last (Text.splitOn '/' p) with ⟨k, hparts⟩ | ⟨before, part, k, hparts, hpart⟩
  · have hk : List.replicate k ([] : Text) ≠ [] := hparts ▸ Text.splitOn_ne_nil '/' p
    rw [hparts, ← List.nil_append (List.replicate k [])] at hwalk
    obtain ⟨folder, rest, hbefore, hfolder, -⟩ := exists_walk_of_append (fun hnil => absurd hnil hk) hwalk
    rw [walk_append_replicate hbefore hfolder k] at hwalk
    exact (hnot hfolder (Except.ok.inj hwalk).symm).elim
  · rw [hparts] at hwalk
    obtain ⟨folder, rest, hbefore, hfolder, hrest⟩ :=
      exists_walk_of_append (fun hnil => by cases hnil) hwalk
    by_cases hlast : Path.IsName part → FitsName part ∧ t.entryAt? (folder ++ [part]) = some .folder
    · obtain ⟨m, hm, hthere⟩ := exists_walk_last htree hfolder hlast rest k
      rw [hthere] at hrest
      exact (hnot hm (Except.ok.inj hrest).symm).elim
    · rw [Classical.not_imp] at hlast
      obtain ⟨hname, hlast⟩ := hlast
      have hsplit := splitLast_of_last hparts hpart
      rw [if_neg hname.2.1, if_neg hname.2.2] at hsplit
      obtain ⟨hfits, entry, hentry⟩ := exists_entry_of_walk_cons hname hrest
      refine ⟨folder, part, _, entry, findParent_eq_ok_iff.2 ⟨htaken, congrArg Prod.snd hsplit, hfolder, rest, ?_⟩,
        hentry, ?_⟩
      · rw [hsplit]
        exact hbefore
      · rintro rfl
        exact hlast ⟨hfits, hentry⟩

end Infill.FileTree
