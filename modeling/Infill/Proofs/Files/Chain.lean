import Infill.Proofs.Files.Folders

/-!
# The effect of making a chain of folders

What making a chain of folders does to the rest of a tree, if each name of the chain is the name of one folder.
Once a folder of the chain is new, the following ones are made inside it, and nothing else changes (`Grown`,
`exists_grown_of_createChain`).  Without deleting, the folders before it were there and stay as they are
(`exists_grown_of_keeping`).  With deleting, already the first one is new: what stood in its place goes, with
everything below it (`entryAt?_of_deleteFolder`).
-/

set_option autoImplicit false

namespace Infill

namespace Path

/-- The name of one folder: it leads one step down. -/
def IsSingle (n : Text) : Prop := IsName n ∧ '/' ∉ n

instance (n : Text) : Decidable (IsSingle n) := inferInstanceAs (Decidable (_ ∧ _))

/-- One name is no absolute path. -/
theorem IsSingle.isAbsolute_eq_false {n : Text} (h : IsSingle n) : isAbsolute n = false :=
  Bool.eq_false_iff.2 fun hhead => h.2 (List.mem_of_mem_head? (beq_iff_eq.1 hhead))

/-- A name behind a path comes behind its parts, of which an empty one at the end does not count. -/
theorem exists_splitOn_join_single {p : Path} {n : Text} (hp : p ≠ []) (hn : IsSingle n) :
    ∃ front k, Text.splitOn '/' p = front ++ List.replicate k [] ∧ Text.splitOn '/' (p.join n) = front ++ [n] := by
  obtain ⟨front, k, hparts, hjoined⟩ := exists_splitOn_join hp hn.isAbsolute_eq_false
  rw [Text.splitOn_of_not_mem hn.2] at hjoined
  exact ⟨front, k, hparts, hjoined⟩

end Path

namespace FileTree

variable {t u : FileTree} {p : Path} {l folder top : Location} {n : Text} {names : List Text} {last : LastPart}

/-! ## A name more -/

section Join

variable (hp : p ≠ []) (hn : Path.IsSingle n)
include hp hn

/-- The name behind a path is looked up in the folder that the path leads to. -/
theorem find_of_findParent_join (h : t.findParent (p.join n) = .ok (folder, last)) :
    last = .name n false ∧ t.find p = .ok folder ∧ t.isFolderAt folder = true := by
  obtain ⟨front, k, hparts, hjoined⟩ := Path.exists_splitOn_join_single hp hn
  obtain ⟨htaken, hlast, hfolder, left, hwalk⟩ := findParent_eq_ok_iff.1 h
  rw [splitLast_of_splitOn hjoined hn.1] at hlast hwalk
  refine ⟨hlast.symm, find_eq_ok_iff.2 ⟨checkPath_of_join hp hn.isAbsolute_eq_false htaken, left, ?_⟩, hfolder⟩
  rw [hparts, ← baseOf_join t.workingFolder hp hn.isAbsolute_eq_false]
  exact walk_append_replicate hwalk hfolder k

/-- A name that nothing stands under in a folder leads nowhere. -/
theorem exists?_join_eq_false (hfind : t.find p = .ok folder) (hfolder : t.isFolderAt folder = true)
    (hnone : t.entryAt? (folder ++ [n]) = none) : t.exists? (p.join n) = false := by
  unfold exists?
  split
  · rename_i l hthere
    obtain ⟨front, k, hparts, hjoined⟩ := Path.exists_splitOn_join_single hp hn
    obtain ⟨-, left, hwalk⟩ := find_eq_ok_iff.1 hfind
    obtain ⟨-, left', hwalk'⟩ := find_eq_ok_iff.1 hthere
    rw [hjoined, baseOf_join t.workingFolder hp hn.isAbsolute_eq_false] at hwalk'
    obtain ⟨m, rest, hfront, hm, hlast⟩ := exists_walk_of_append (fun hnil => by cases hnil) hwalk'
    rw [hparts, walk_append_replicate hfront hm k] at hwalk
    obtain ⟨rfl, rfl⟩ := Prod.mk.inj (Except.ok.inj hwalk)
    obtain ⟨-, entry, hentry⟩ := exists_entry_of_walk_cons hn.1 hlast
    rw [hnone] at hentry
    cases hentry
  · rfl

end Join

/-! ## Taking an entry away with all below it -/

section Deleting

variable (hbelow : ∀ more, more ≠ [] → t.entryAt? (l ++ more) = none)
include hbelow

/-- Where nothing stands, nothing stands below. -/
theorem entryAt?_eq_ite_of_entry_none (hnone : t.entryAt? l = none) (m : Location) :
    t.entryAt? m = if l <+: m then none else t.entryAt? m := by
  split_ifs with hm
  · obtain ⟨more, rfl⟩ := hm
    by_cases hmore : more = []
    · rw [hmore, List.append_nil, hnone]
    · exact hbelow more hmore
  · rfl

/-- What has nothing below it is removed with all that is below it. -/
theorem entryAt?_remove_of_lowest (hl : l ≠ []) (m : Location) :
    (t.remove l).entryAt? m = if l <+: m then none else t.entryAt? m := by
  by_cases hm : m = l
  · rw [hm, entryAt?_remove_self hl, if_pos (List.prefix_refl l)]
  · rw [entryAt?_remove_of_ne hm]
    split_ifs with hbegins
    · obtain ⟨more, rfl⟩ := hbegins
      exact hbelow more fun hmore => hm (by rw [hmore, List.append_nil])
    · rfl

end Deleting

/-- Inside a folder that was cleared nothing stands. -/
theorem entryAt?_clear_below (t : FileTree) (l : Location) {more : List Text} (hmore : more ≠ []) :
    (t.clear l).entryAt? (l ++ more) = none := by
  rw [entryAt?_clear, if_pos (isBelow_iff.2 ⟨List.prefix_append _ _, by simpa using hmore⟩)]

/-- A folder that was cleared is deleted, if its path leads to it still. -/
theorem deleteFolder_of_clear (hfolder : t.entryAt? (folder ++ [n]) = some .folder) {left : Nat}
    (hends : (t.clear (folder ++ [n])).EndsIn linkLimit t.workingFolder p folder n left) :
    (t.clear (folder ++ [n])).deleteFolder p = .ok ((t.clear (folder ++ [n])).remove (folder ++ [n])) := by
  have hthere : (t.clear (folder ++ [n])).isFolderAt (folder ++ [n]) = true := by
    rw [isFolderAt_iff, entryAt?_clear, if_neg (by simp [isBelow]), hfolder]
  have hempty : ((t.clear (folder ++ [n])).namesIn (folder ++ [n])).isEmpty = true := by
    rw [List.isEmpty_iff, List.eq_nil_iff_forall_not_mem]
    intro name hname
    obtain ⟨entry, hentry⟩ := mem_namesIn_iff.1 hname
    rw [entryAt?_clear_below t _ (List.cons_ne_nil name [])] at hentry
    cases hentry
  have hnames : (t.clear (folder ++ [n])).Names p (folder ++ [n]) := ⟨folder, n, left, hends, rfl⟩
  rw [hnames.deleteFolder hthere, if_pos hempty]

/-- Under a path a link stands that leads nowhere. -/
def Dangling (t : FileTree) (p : Path) : Prop :=
  (∃ l target, t.entryNamed p = .ok (l, .link target)) ∧ t.exists? p = false

/-! ## Chains -/

/-- `u` is `t` with a chain of folders at `top`, one inside the other, to which the names behind `p` lead. -/
structure Grown (t u : FileTree) (p : Path) (top : Location) (names : List Text) : Prop where
  folders : ∀ front, front <+: names → u.entryAt? (top ++ front) = some .folder
  found : ∀ front, front <+: names → u.find (p.below front) = .ok (top ++ front)
  others : ∀ l, (∀ front, front <+: names → l ≠ top ++ front) → u.entryAt? l = t.entryAt? l
  workingFolder : u.workingFolder = t.workingFolder

/-- A folder is a chain without names. -/
theorem grown_nil (hfolder : t.isFolderAt top = true) (hfind : t.find p = .ok top) : t.Grown t p top [] := by
  refine ⟨fun front hfront => ?_, fun front hfront => ?_, fun _ _ => rfl, rfl⟩
  · rw [List.prefix_nil.1 hfront, List.append_nil]
    exact isFolderAt_iff.1 hfolder
  · rw [List.prefix_nil.1 hfront, List.append_nil]
    exact hfind

/-- What is new stands in the chain. -/
theorem Grown.exists_front_of_new (h : t.Grown u p top names) {entry : Entry} (hnone : t.entryAt? l = none)
    (hentry : u.entryAt? l = some entry) : ∃ front, front <+: names ∧ l = top ++ front := by
  by_contra hnot
  rw [h.others l fun front hfront heq => hnot ⟨front, hfront, heq⟩, hnone] at hentry
  cases hentry

/-- In an empty folder a chain takes nothing away. -/
theorem Grown.within (h : t.Grown u p top names) (hfolder : t.isFolderAt top = true)
    (hempty : ∀ more, more ≠ [] → t.entryAt? (top ++ more) = none) : t.Within u := by
  intro l entry hentry
  by_cases hl : ∃ front, front <+: names ∧ l = top ++ front
  · obtain ⟨front, hfront, rfl⟩ := hl
    by_cases hnil : front = []
    · subst hnil
      rw [List.append_nil, isFolderAt_iff.1 hfolder] at hentry
      rw [h.folders [] hfront, hentry]
    · rw [hempty front hnil] at hentry
      cases hentry
  · rw [h.others l fun front hfront heq => hl ⟨front, hfront, heq⟩, hentry]

/-- A chain goes on inside a folder that was just made. -/
theorem Grown.cons (hfolder : t.isFolderAt top = true) (hfind : t.find p = .ok top) (hwithin : t.Within u)
    (h : (t.put (top ++ [n]) .folder).Grown u (p.join n) (top ++ [n]) names) : t.Grown u p top (n :: names) := by
  refine ⟨fun front hfront => ?_, fun front hfront => ?_, fun l hl => ?_, h.workingFolder⟩
  · cases front with
    | nil =>
      rw [List.append_nil]
      exact hwithin _ _ (isFolderAt_iff.1 hfolder)
    | cons name front =>
      obtain ⟨rfl, hrest⟩ := List.cons_prefix_cons.1 hfront
      rw [List.append_cons]
      exact h.folders front hrest
  · cases front with
    | nil =>
      rw [List.append_nil]
      exact hwithin.find h.workingFolder hfind
    | cons name front =>
      obtain ⟨rfl, hrest⟩ := List.cons_prefix_cons.1 hfront
      rw [List.append_cons]
      exact h.found front hrest
  · have hnot : ∀ front, front <+: names → l ≠ top ++ [n] ++ front := by
      intro front hfront
      rw [← List.append_cons]
      exact hl (n :: front) (List.cons_prefix_cons.2 ⟨rfl, hfront⟩)
    have hne : l ≠ top ++ [n] := hl [n] (List.cons_prefix_cons.2 ⟨rfl, List.nil_prefix⟩)
    rw [h.others l hnot, entryAt?_put_of_ne hne]

end FileTree

namespace Files

open FileTree (Grown FitsName)

variable {t u : FileTree} {p current : Path} {top folder : Location} {n : Text} {folders : List Path}

/-! ## Deleting a folder -/

section Deleting

variable (htree : t.IsTree) {left : Nat} (hends : t.EndsIn FileTree.linkLimit t.workingFolder p folder n left)
include htree hends

/-- Deleting where nothing stands takes away all that is there, which is nothing. -/
theorem entryAt?_of_deleteFolder_nothing (h : deleteFolder t p = (u, .ok ()))
    (hnone : t.entryAt? (folder ++ [n]) = none) (l : Location) :
    u.entryAt? l = if folder ++ [n] <+: l then none else t.entryAt? l := by
  have hnamed : t.entryNamed p = .error .notFound := by
    unfold FileTree.entryNamed
    rw [FileTree.findParent_of_endsIn hends]
    simp only [bind, Except.bind, FileTree.lookUp_of_fitsName t folder hends.fits, hnone]
    rfl
  unfold deleteFolder FileTree.deleteAll at h
  rw [hnamed] at h
  obtain ⟨rfl, -⟩ := Prod.mk.inj h
  have hbelow : ∀ more, more ≠ [] → t.entryAt? (folder ++ [n] ++ more) = none := fun more hmore =>
    htree.entryAt?_below_eq_none (by simp [FileTree.isFolderAt, hnone]) hmore
  exact FileTree.entryAt?_eq_ite_of_entry_none hbelow hnone l

/-- Deleting a link takes it away and nothing else. -/
theorem entryAt?_of_deleteFolder_link (h : deleteFolder t p = (u, .ok ())) {target : Path}
    (hlink : t.entryAt? (folder ++ [n]) = some (.link target)) (l : Location) :
    u.entryAt? l = if folder ++ [n] <+: l then none else t.entryAt? l := by
  have hdelete : t.deleteFile p = .ok (t.remove (folder ++ [n])) := by
    unfold FileTree.deleteFile
    rw [FileTree.findParent_of_endsIn hends]
    simp only [bind, Except.bind, FileTree.lookUp_of_fitsName t folder hends.fits, hlink]
    rfl
  unfold deleteFolder FileTree.deleteAll at h
  rw [FileTree.entryNamed_of_endsIn hends hlink] at h
  simp only [hdelete] at h
  obtain ⟨rfl, -⟩ := Prod.mk.inj h
  have hbelow : ∀ more, more ≠ [] → t.entryAt? (folder ++ [n] ++ more) = none := fun more hmore =>
    htree.entryAt?_below_eq_none (by simp [FileTree.isFolderAt, hlink]) hmore
  exact FileTree.entryAt?_remove_of_lowest hbelow (by simp) l

/-- A folder is cleared first.  If its path leads to it still, it is empty and goes as well. -/
theorem entryAt?_of_deleteFolder_folder (h : deleteFolder t p = (u, .ok ()))
    (hparent : u.findParent p = .ok (folder, .name n false))
    (hfolder : t.entryAt? (folder ++ [n]) = some .folder) (l : Location) :
    u.entryAt? l = if folder ++ [n] <+: l then none else t.entryAt? l := by
  have hcleared := FileTree.left_clear htree (folder ++ [n])
  have hdeletes : u.Within (t.clear (folder ++ [n])) → u.workingFolder = t.workingFolder →
      (t.clear (folder ++ [n])).deleteFolder p = .ok ((t.clear (folder ++ [n])).remove (folder ++ [n])) := by
    intro hwithin hworking
    obtain ⟨left', hends'⟩ := FileTree.exists_endsIn_of_findParent
      (hwithin.findParent hworking.symm hparent) hends.fits
    exact FileTree.deleteFolder_of_clear hfolder hends'
  have hu : u = (t.clear (folder ++ [n])).remove (folder ++ [n]) := by
    unfold deleteFolder FileTree.deleteAll at h
    rw [FileTree.entryNamed_of_endsIn hends hfolder] at h
    dsimp only at h
    cases hdelete : (t.clear (folder ++ [n])).deleteFolder p with
    | ok v =>
      rw [hdelete] at h
      obtain ⟨rfl, -⟩ := Prod.mk.inj h
      have hleft := FileTree.left_deleteFolder hcleared.isTree hdelete
      have hdeleted := hdeletes hleft.within hleft.workingFolder
      rw [hdelete] at hdeleted
      exact Except.ok.inj hdeleted
    | error fault =>
      rw [hdelete] at h
      have hsame : t.clear (folder ++ [n]) = u := by
        cases fault <;> exact congrArg Prod.fst h
      subst hsame
      rw [hdeletes (.refl _) rfl] at hdelete
      cases hdelete
  rw [hu, FileTree.entryAt?_remove_of_lowest (fun _ => FileTree.entryAt?_clear_below t _) (by simp),
    FileTree.entryAt?_clear]
  split_ifs with hbegins hinside
  · rfl
  · exact absurd (FileTree.isBelow_iff.1 hinside).1 hbegins
  · rfl

end Deleting

/-- After deleting nothing stands at or below the last name of the path, and everything else is unchanged. -/
theorem entryAt?_of_deleteFolder (htree : t.IsTree) (h : deleteFolder t p = (u, .ok ()))
    (hparent : u.findParent p = .ok (folder, .name n false)) (hfits : FitsName n) (l : Location) :
    u.entryAt? l = if folder ++ [n] <+: l then none else t.entryAt? l := by
  have hleft := left_deleteFolder htree p
  rw [h] at hleft
  obtain ⟨left, hends⟩ := FileTree.exists_endsIn_of_findParent
    (hleft.within.findParent hleft.workingFolder.symm hparent) hfits
  cases hentry : t.entryAt? (folder ++ [n]) with
  | none => exact entryAt?_of_deleteFolder_nothing htree hends h hentry l
  | some entry =>
    match entry with
    | .file content =>
      unfold deleteFolder FileTree.deleteAll at h
      rw [FileTree.entryNamed_of_endsIn hends hentry] at h
      cases h
    | .link target => exact entryAt?_of_deleteFolder_link htree hends h hentry l
    | .folder => exact entryAt?_of_deleteFolder_folder htree hends h hparent hentry l

/-! ## Making a chain -/

/-- A folder is made by its name in the folder that the path before leads to, unless something stands there. -/
theorem createFolder_join_cases (hcurrent : current ≠ []) (hn : Path.IsSingle n)
    (h : createFolder t (current.join n) = .ok u) :
    ∃ folder left, t.find current = .ok folder ∧
      t.EndsIn FileTree.linkLimit t.workingFolder (current.join n) folder n left ∧
      (u = t ∧ (∃ entry, t.entryAt? (folder ++ [n]) = some entry) ∨
        t.entryAt? (folder ++ [n]) = none ∧ u = t.put (folder ++ [n]) .folder) := by
  obtain ⟨folder, last, hparent, hmade⟩ := createFolder_cases h
  obtain ⟨rfl, hfind, -⟩ := FileTree.find_of_findParent_join hcurrent hn hparent
  have hfits : FitsName n := by
    rcases hmade with ⟨-, hthere⟩ | ⟨n', slash, hlast, hfits, -⟩
    · exact (hthere n false rfl).1
    · obtain ⟨rfl, -⟩ := FileTree.LastPart.name.inj hlast
      exact hfits
  obtain ⟨left, hends⟩ := FileTree.exists_endsIn_of_findParent hparent hfits
  refine ⟨folder, left, hfind, hends, ?_⟩
  rcases hmade with ⟨hsame, hthere⟩ | ⟨n', slash, hlast, -, hnone, hput⟩
  · exact .inl ⟨hsame, (hthere n false rfl).2⟩
  · obtain ⟨rfl, -⟩ := FileTree.LastPart.name.inj hlast
    exact .inr ⟨hnone, hput⟩

/-- If nothing is deleted, a chain is made by making its first folder and then the others below it. -/
theorem createChain_cons_of_keeping {deletePrevious : Bool}
    (h : (t.exists? (current.join n) && deletePrevious) = false) (folders : List Path) :
    createChain deletePrevious t current (n :: folders) =
      match createFolder t (current.join n) with
      | .error e => (t, .error e)
      | .ok t => createChain deletePrevious t (current.join n) folders := by
  rw [createChain, h]
  rfl

/-- A folder that was just made is found under its path, and it is empty. -/
theorem found_of_put_folder {left : Nat} (hempty : ∀ more, more ≠ [] → t.entryAt? (folder ++ [n] ++ more) = none)
    (hnone : t.entryAt? (folder ++ [n]) = none)
    (hends : t.EndsIn FileTree.linkLimit t.workingFolder p folder n left) :
    (t.put (folder ++ [n]) .folder).find p = .ok (folder ++ [n]) ∧
      (t.put (folder ++ [n]) .folder).isFolderAt (folder ++ [n]) = true ∧
      ∀ more, more ≠ [] → (t.put (folder ++ [n]) .folder).entryAt? (folder ++ [n] ++ more) = none := by
  have hthere : (t.put (folder ++ [n]) .folder).isFolderAt (folder ++ [n]) = true :=
    FileTree.isFolderAt_iff.2 (FileTree.entryAt?_put_self (by simp) .folder)
  have hnames : (t.put (folder ++ [n]) .folder).Names p (folder ++ [n]) :=
    ⟨folder, n, left, hends.keeps (FileTree.within_put hnone .folder).keeps, rfl⟩
  refine ⟨hnames.find hthere, hthere, fun more hmore => ?_⟩
  rw [FileTree.entryAt?_put_of_ne (by simpa using hmore), hempty more hmore]

section MakingChain

variable (hcurrent : current ≠ []) (hsingle : ∀ n ∈ folders, Path.IsSingle n)
include hcurrent hsingle

/-- In a folder that is empty a chain of folders is made and nothing else, whatever comes out: a part of the chain if
making one of the folders fails, and else the whole. -/
theorem exists_grown_of_createChain (deletePrevious : Bool) {result : Except StoreError Path}
    (hfind : t.find current = .ok top) (hfolder : t.isFolderAt top = true)
    (hempty : ∀ more, more ≠ [] → t.entryAt? (top ++ more) = none)
    (h : createChain deletePrevious t current folders = (u, result)) :
    ∃ made back, folders = made ++ back ∧ t.Grown u current top made ∧
      ∀ p, result = .ok p → back = [] ∧ p = current.below folders := by
  induction folders generalizing t current top with
  | nil =>
    obtain ⟨rfl, rfl⟩ := Prod.mk.inj h
    exact ⟨[], [], rfl, FileTree.grown_nil hfolder hfind, fun p hp => ⟨rfl, (Except.ok.inj hp).symm⟩⟩
  | cons n folders ih =>
    have hn := hsingle n List.mem_cons_self
    have hnone := hempty [n] (List.cons_ne_nil n [])
    have hkeeping : (t.exists? (current.join n) && deletePrevious) = false := by
      rw [FileTree.exists?_join_eq_false hcurrent hn hfind hfolder hnone, Bool.false_and]
    rw [createChain_cons_of_keeping hkeeping] at h
    cases hmade : createFolder t (current.join n) with
    | error e =>
      rw [hmade] at h
      obtain ⟨rfl, rfl⟩ := Prod.mk.inj h
      exact ⟨[], n :: folders, rfl, FileTree.grown_nil hfolder hfind, fun p hp => by cases hp⟩
    | ok next =>
      rw [hmade] at h
      obtain ⟨folder, left, hfind', hends, hcases⟩ := createFolder_join_cases hcurrent hn hmade
      obtain rfl : folder = top := by
        rw [hfind] at hfind'
        exact (Except.ok.inj hfind').symm
      obtain ⟨-, entry, hentry⟩ | ⟨-, rfl⟩ := hcases
      · rw [hnone] at hentry
        cases hentry
      · have hinside : ∀ more, more ≠ [] → t.entryAt? (folder ++ [n] ++ more) = none := by
          intro more _
          rw [← List.append_cons]
          exact hempty (n :: more) (List.cons_ne_nil n more)
        obtain ⟨hfind'', hfolder'', hempty''⟩ := found_of_put_folder hinside hnone hends
        obtain ⟨made, back, rfl, hgrown, hback⟩ := ih (Path.join_ne_nil hcurrent n)
          (fun m hm => hsingle m (List.mem_cons_of_mem n hm)) hfind'' hfolder'' hempty'' h
        have hwithin := (FileTree.within_put hnone .folder).trans (hgrown.within hfolder'' hempty'')
        exact ⟨n :: made, back, rfl, hgrown.cons hfolder hfind hwithin, hback⟩

/-- If nothing is deleted, the first folders of a chain were there, and from the first new one on it is made in an
empty folder. -/
theorem exists_grown_of_keeping (htree : t.IsTree) {result : Except StoreError Path}
    (h : createChain false t current folders = (u, result)) :
    u = t ∨ ∃ before made back top, folders = before ++ (made ++ back) ∧ t.isFolderAt top = true ∧
      t.Grown u (current.below before) top made := by
  induction folders generalizing current with
  | nil => exact .inl (Prod.mk.inj h).1.symm
  | cons n folders ih =>
    have hn := hsingle n List.mem_cons_self
    have hothers : ∀ m ∈ folders, Path.IsSingle m := fun m hm => hsingle m (List.mem_cons_of_mem n hm)
    have hnext := Path.join_ne_nil hcurrent n
    rw [createChain_cons_of_keeping (Bool.and_false _)] at h
    cases hmade : createFolder t (current.join n) with
    | error e =>
      rw [hmade] at h
      exact .inl (Prod.mk.inj h).1.symm
    | ok next =>
      rw [hmade] at h
      obtain ⟨folder, left, hfind, hends, ⟨rfl, -⟩ | ⟨hnone, rfl⟩⟩ := createFolder_join_cases hcurrent hn hmade
      · rcases ih hnext hothers h with rfl | ⟨before, made, back, top, rfl, hfolder, hgrown⟩
        · exact .inl rfl
        · exact .inr ⟨n :: before, made, back, top, rfl, hfolder, hgrown⟩
      · have hinside : ∀ more, more ≠ [] → t.entryAt? (folder ++ [n] ++ more) = none := fun more hmore =>
          htree.entryAt?_below_eq_none (by simp [FileTree.isFolderAt, hnone]) hmore
        obtain ⟨hfind', hfolder', hempty'⟩ := found_of_put_folder hinside hnone hends
        obtain ⟨made, back, rfl, hgrown, -⟩ :=
          exists_grown_of_createChain hnext hothers false hfind' hfolder' hempty' h
        have hwithin := (FileTree.within_put hnone .folder).trans (hgrown.within hfolder' hempty')
        exact .inr ⟨[], n :: made, back, folder, rfl, hends.isFolderAt, hgrown.cons hends.isFolderAt hfind hwithin⟩

end MakingChain

/-! ## What making a chain comes to -/

/-- What a chain gets instead of what stood at its first folder: nothing is left there, and all else is as it was. -/
theorem entryAt?_of_cleared {cleared : FileTree} {left : Nat} (htree : t.IsTree)
    (hcleared : cleared = t ∧ t.exists? p = false ∨ deleteFolder t p = (cleared, .ok ()))
    (hdangling : ¬ t.Dangling p)
    (hends : cleared.EndsIn FileTree.linkLimit cleared.workingFolder p folder n left) (l : Location) :
    cleared.entryAt? l = if folder ++ [n] <+: l then none else t.entryAt? l := by
  rcases hcleared with ⟨rfl, hmissing⟩ | hdeleted
  · have hnone : cleared.entryAt? (folder ++ [n]) = none := by
      refine Option.eq_none_iff_forall_ne_some.2 fun entry hentry => ?_
      match entry with
      | .link target => exact hdangling ⟨⟨_, target, FileTree.entryNamed_of_endsIn hends hentry⟩, hmissing⟩
      | .file _ | .folder =>
        have hfind := FileTree.find_of_walk hends.taken (hends.walk_of_entry hentry (by simp))
        unfold FileTree.exists? at hmissing
        rw [hfind] at hmissing
        cases hmissing
    refine FileTree.entryAt?_eq_ite_of_entry_none (fun more hmore => ?_) hnone l
    exact htree.entryAt?_below_eq_none (by simp [FileTree.isFolderAt, hnone]) hmore
  · exact entryAt?_of_deleteFolder htree hdeleted (FileTree.findParent_of_endsIn hends) hends.fits l

/-- Without deleting, nothing is lost, and new folders are folders of the chain. -/
theorem added_of_createFolders (htree : t.IsTree) {root : Path} (hsingle : ∀ n ∈ folders, Path.IsSingle n)
    {result : Except StoreError Path} (h : createFolders t root folders false = (u, result)) :
    t.Within u ∧ ∀ l entry, t.entryAt? l = none → u.entryAt? l = some entry →
      entry = .folder ∧ ∃ front back, folders = front ++ back ∧ front ≠ [] ∧ u.find (root.below front) = .ok l ∧
        ∀ n ∈ u.namesIn l, back.head? = some n := by
  unfold createFolders at h
  split_ifs at h with hroot
  · have hne : root ≠ [] := by
      rintro rfl
      cases hroot
    have hwithin := (within_createChain t root folders).1
    rw [h] at hwithin
    refine ⟨hwithin, fun l entry hnone hentry => ?_⟩
    rcases exists_grown_of_keeping hne hsingle htree h with rfl | ⟨before, made, back, top, rfl, hfolder, hgrown⟩
    · rw [hnone] at hentry
      cases hentry
    · obtain ⟨front, ⟨rest, rfl⟩, rfl⟩ := hgrown.exists_front_of_new hnone hentry
      have hthere := hgrown.folders front (List.prefix_append front rest)
      refine ⟨Option.some.inj (hentry.symm.trans hthere), before ++ front, rest ++ back, ?_, ?_, ?_, ?_⟩
      · simp only [List.append_assoc]
      · intro hnil
        rw [(List.append_eq_nil_iff.1 hnil).2, List.append_nil, FileTree.isFolderAt_iff.1 hfolder] at hnone
        cases hnone
      · rw [Path.below, List.foldl_append]
        exact hgrown.found front (List.prefix_append front rest)
      · -- What stands in a new folder is new as well, so it is the next folder of the chain.
        intro n hn
        obtain ⟨entry', hentry'⟩ := FileTree.mem_namesIn_iff.1 hn
        have hnone' := htree.entryAt?_below_eq_none (l := top ++ front) (by simp [FileTree.isFolderAt, hnone])
          (List.cons_ne_nil n [])
        obtain ⟨front', hfront', heq⟩ := hgrown.exists_front_of_new hnone' hentry'
        rw [List.append_assoc, List.append_cancel_left_eq] at heq
        rw [← heq, List.prefix_append_right_inj] at hfront'
        obtain ⟨rest', rfl⟩ := hfront'
        rfl
  · obtain ⟨rfl, -⟩ := Prod.mk.inj h
    refine ⟨.refl t, fun l entry hnone hentry => ?_⟩
    rw [hnone] at hentry
    cases hentry

/-- With deleting, what stood at the first folder is replaced by the chain. -/
theorem replaced_of_createFolders (htree : t.IsTree) {root first : Path} {rest : List Path}
    (hsingle : ∀ n ∈ first :: rest, Path.IsSingle n) (hdangling : ¬ t.Dangling (root.join first))
    (h : createFolders t root (first :: rest) true = (u, .ok p)) :
    p = root.below (first :: rest) ∧ ∃ folder, t.find root = .ok folder ∧
      u.find (root.join first) = .ok (folder ++ [first]) ∧ u.find p = .ok (folder ++ first :: rest) ∧
      (∀ more, u.entryAt? (folder ++ first :: more) = if more <+: rest then some .folder else none) ∧
      ∀ l, ¬ folder ++ [first] <+: l → u.entryAt? l = t.entryAt? l := by
  obtain ⟨hroot, h⟩ := createFolders_eq_ok h
  have hne : root ≠ [] := by
    rintro rfl
    cases hroot
  have hfirst := hsingle first List.mem_cons_self
  obtain ⟨cleared, made, hcleared, hmade, hrest⟩ := createChain_cons_eq_ok h
  have hleft : t.Left cleared := by
    rcases hcleared with ⟨rfl, -⟩ | ⟨-, hdeleted⟩
    · exact FileTree.left_self htree
    · have hleft := left_deleteFolder htree (root.join first)
      rwa [hdeleted] at hleft
  obtain ⟨folder, left, hfind, hends, hcases⟩ := createFolder_join_cases hne hfirst hmade
  have hentries := entryAt?_of_cleared htree
    (hcleared.imp (fun ⟨hsame, hmissing⟩ => ⟨hsame, hmissing rfl⟩) And.right) hdangling hends
  have hnone : cleared.entryAt? (folder ++ [first]) = none := by
    rw [hentries, if_pos (List.prefix_refl _)]
  obtain ⟨-, entry, hentry⟩ | ⟨-, rfl⟩ := hcases
  · rw [hnone] at hentry
    cases hentry
  · have hinside : ∀ more, more ≠ [] → cleared.entryAt? (folder ++ [first] ++ more) = none := fun more _ => by
      rw [hentries, if_pos (List.prefix_append _ more)]
    obtain ⟨hfind', hfolder', hempty'⟩ := found_of_put_folder hinside hnone hends
    obtain ⟨names, back, rfl, hgrown, hback⟩ := exists_grown_of_createChain (Path.join_ne_nil hne first)
      (fun m hm => hsingle m (List.mem_cons_of_mem first hm)) true hfind' hfolder' hempty' hrest
    obtain ⟨rfl, rfl⟩ := hback p rfl
    rw [List.append_nil] at *
    refine ⟨rfl, folder, hleft.within.find hleft.workingFolder.symm hfind, ?_, ?_, fun more => ?_, fun l hl => ?_⟩
    · have hfound := hgrown.found [] List.nil_prefix
      rwa [List.append_nil] at hfound
    · rw [List.append_cons]
      exact hgrown.found names (List.prefix_refl names)
    · rw [List.append_cons]
      split_ifs with hmore
      · exact hgrown.folders more hmore
      · have hnot : ∀ front, front <+: names → folder ++ [first] ++ more ≠ folder ++ [first] ++ front := by
          intro front hfront heq
          rw [List.append_cancel_left_eq] at heq
          exact hmore (heq ▸ hfront)
        have hnil : more ≠ [] := fun hnil => hmore (hnil ▸ List.nil_prefix)
        rw [hgrown.others _ hnot, hempty' more hnil]
    · rw [hgrown.others l fun front _ heq => hl ⟨front, heq.symm⟩,
        FileTree.entryAt?_put_of_ne (by rintro rfl; exact hl (List.prefix_refl _)), hentries, if_neg hl]

/-- What making a chain of folders does to a tree, if each of its names is the name of one folder.

Without deleting, whatever comes out, every entry stays as it is; what is new is a folder of the chain, in which
nothing stands but the next one.  With deleting, if what stands at the first folder is no link that leads nowhere,
success means that the first folder is there with nothing below it but the chain, that the path of the deepest folder
is given back, and that everything that is not at or below the first folder is as it was. -/
theorem createFolders_effect (htree : t.IsTree) (root : Path) :
    (∀ folders u result, (∀ n ∈ folders, Path.IsSingle n) → createFolders t root folders false = (u, result) →
      (∀ l entry, t.entryAt? l = some entry → u.entryAt? l = some entry) ∧
        ∀ l entry, t.entryAt? l = none → u.entryAt? l = some entry →
          entry = .folder ∧ ∃ front back, folders = front ++ back ∧ front ≠ [] ∧
            u.find (root.below front) = .ok l ∧ ∀ n ∈ u.namesIn l, back.head? = some n) ∧
    ∀ first rest u p, (∀ n ∈ first :: rest, Path.IsSingle n) → ¬ t.Dangling (root.join first) →
      createFolders t root (first :: rest) true = (u, .ok p) →
      p = root.below (first :: rest) ∧ ∃ folder, t.find root = .ok folder ∧
        u.find (root.join first) = .ok (folder ++ [first]) ∧ u.find p = .ok (folder ++ first :: rest) ∧
        (∀ more, u.entryAt? (folder ++ first :: more) = if more <+: rest then some .folder else none) ∧
        ∀ l, ¬ folder ++ [first] <+: l → u.entryAt? l = t.entryAt? l :=
  ⟨fun _ _ _ hsingle h => added_of_createFolders htree hsingle h,
    fun _ _ _ _ hsingle hdangling h => replaced_of_createFolders htree hsingle hdangling h⟩

/-- Below a folder with a file in it two folders are added; and a link that leads to the folder is replaced by a
chain, which leaves the folder alone. -/
theorem createFolders_effect_on_stale :
    createFolders stale ['.'] [['a'], ['b'], ['c']] false = (⟨stale.entries ++
        [([['a'], ['b']], .folder), ([['a'], ['b'], ['c']], .folder)], []⟩, .ok "./a/b/c".toList) ∧
      (createFolders stale ['.'] [['a'], ['b'], ['c']] false).1.entryAt? [['a'], ['x']] = some (.file []) ∧
      (∃ front back, [['a'], ['b'], ['c']] = front ++ back ∧ front ≠ [] ∧
        (createFolders stale ['.'] [['a'], ['b'], ['c']] false).1.find (Path.below ['.'] front) = .ok [['a'], ['b']] ∧
        ∀ n ∈ (createFolders stale ['.'] [['a'], ['b'], ['c']] false).1.namesIn [['a'], ['b']], back.head? = some n) ∧
      ∃ folder, stale.find ['.'] = .ok folder ∧
        ∀ l, ¬ folder ++ [['l']] <+: l →
          (createFolders stale ['.'] [['l'], ['b']] true).1.entryAt? l = stale.entryAt? l := by
  have hadded : createFolders stale ['.'] [['a'], ['b'], ['c']] false = (⟨stale.entries ++
      [([['a'], ['b']], .folder), ([['a'], ['b'], ['c']], .folder)], []⟩, .ok "./a/b/c".toList) := by
    decide +kernel
  have hreplaced : createFolders stale ['.'] [['l'], ['b']] true =
      (⟨[([['a']], .folder), ([['a'], ['x']], .file []), ([['l']], .folder), ([['l'], ['b']], .folder)], []⟩,
        .ok "./l/b".toList) := by
    decide +kernel
  have hlive : ¬ stale.Dangling "./l".toList := fun h => absurd h.2 (by decide +kernel)
  obtain ⟨hkept, hnew⟩ := (createFolders_effect isTree_stale ['.']).1 [['a'], ['b'], ['c']] _ _ (by decide) hadded
  obtain ⟨-, folder, hfind, -, -, -, hothers⟩ :=
    (createFolders_effect isTree_stale ['.']).2 ['l'] [['b']] _ _ (by decide) hlive hreplaced
  rw [hadded, hreplaced]
  exact ⟨rfl, hkept [['a'], ['x']] (.file []) (by decide), (hnew [['a'], ['b']] .folder (by decide) (by decide)).2,
    folder, hfind, hothers⟩

end Files
end Infill
