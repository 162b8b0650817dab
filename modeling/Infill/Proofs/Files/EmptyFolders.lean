import Infill.Proofs.Files.Named
import Infill.Proofs.Text.Utf8

/-!
# Deleting empty folders

A visit leaves a folder pruned, or it stops at a folder that its path does not lead to in what is left of the
tree (`visitFolder_cases`).  So nothing but hollow folders at or below the root ever goes.  The way to the root
may lead through one of them, and a path may be too long for the system; in no other case does a visit stop
(`not_lost`).
-/

set_option autoImplicit false

namespace Infill

open FileTree (Keeps under)

/-- The path of what names lead to from `p`. -/
def Path.below (p : Path) (names : List Text) : Path := names.foldl Path.join p

/-- A name more is joined to the path below. -/
theorem Path.below_concat (p : Path) (names : List Text) (n : Text) :
    p.below (names ++ [n]) = (p.below names).join n := by
  simp [Path.below]

namespace FileTree

variable {t : FileTree} {l m : Location}

/-- Below a location is what begins with it and is not the location itself. -/
theorem isBelow_iff : isBelow l m = true ↔ l <+: m ∧ l ≠ m := by
  simp [isBelow]

/-- No location of an entry is longer than the tree is deep. -/
theorem length_le_depth {entry : Entry} (h : t.entryAt? l = some entry) : l.length ≤ t.depth := by
  by_cases hl : l = []
  · subst hl
    exact Nat.zero_le _
  · have hdepth : ∀ entries : Entries Location Entry, (l, entry) ∈ entries →
        l.length ≤ entries.foldr (fun entry deepest => max entry.1.length deepest) 0 := by
      intro entries hmem
      induction entries with
      | nil => cases hmem
      | cons head rest ih =>
        rcases List.mem_cons.1 hmem with rfl | hmem
        · exact Nat.le_max_left _ _
        · exact Nat.le_trans (ih hmem) (Nat.le_max_right _ _)
    rw [entryAt?, if_neg hl] at h
    exact hdepth t.entries (Entries.mem_of_lookup_eq_some h)

/-- Two folders inside one have nothing below them in common. -/
theorem not_prefix_of_ne {n n' : Text} (hne : n ≠ n') (hm : l ++ [n] <+: m) : ¬ l ++ [n'] <+: m := by
  intro hm'
  obtain ⟨rest, rfl⟩ := hm
  obtain ⟨rest', heq⟩ := hm'
  rw [List.append_assoc, List.append_assoc] at heq
  exact hne (List.cons.inj (List.append_cancel_left heq)).1.symm

/-- No location begins with one that is longer by a name. -/
theorem not_prefix_append (l : Location) (n : Text) : ¬ l ++ [n] <+: l := by
  intro h
  have hlength := h.length_le
  rw [List.length_append, List.length_singleton] at hlength
  omega

/-- What begins with a name inside a location is below it. -/
theorem isBelow_of_inside {n : Text} (h : l ++ [n] <+: m) : isBelow l m = true := by
  refine isBelow_iff.2 ⟨(List.prefix_append l [n]).trans h, ?_⟩
  rintro rfl
  exact not_prefix_append _ _ h

/-- A region has become another one by more of what lies below a location. -/
def GrowsBelow (l : Location) (region region' : Location → Bool) : Prop :=
  ∀ m, region' m = true → region m = true ∨ isBelow l m = true

section GrowsBelow

variable {region region' : Location → Bool}

/-- A region need not grow. -/
theorem GrowsBelow.refl (l : Location) (region : Location → Bool) : GrowsBelow l region region :=
  fun _ hm => .inl hm

/-- The location itself does not come into the region. -/
theorem GrowsBelow.eq_false (h : GrowsBelow l region region') (hl : region l = false) : region' l = false := by
  refine Bool.eq_false_iff.2 fun htrue => ?_
  rcases h l htrue with h | h
  · rw [hl] at h
    cases h
  · exact (isBelow_iff.1 h).2 rfl

/-- With what stands inside the location a region grows below it. -/
theorem GrowsBelow.under_inside (h : GrowsBelow l region region') (folders : List Text) :
    GrowsBelow l region (under region' (folders.map fun n => l ++ [n])) := by
  intro m hm
  rcases under_iff.1 hm with hm | ⟨top, htop, hm⟩
  · exact h m hm
  · obtain ⟨n, -, rfl⟩ := List.mem_map.1 htop
    exact .inr (isBelow_of_inside hm)

/-- What grows below a folder inside grows below the folder. -/
theorem GrowsBelow.of_inside {n : Text} {region'' : Location → Bool} (h : GrowsBelow l region region')
    (hinside : GrowsBelow (l ++ [n]) region' region'') : GrowsBelow l region region'' := by
  intro m hm
  rcases hinside m hm with hm | hm
  · exact h m hm
  · exact .inr (isBelow_of_inside (isBelow_iff.1 hm).1)

end GrowsBelow

end FileTree

/-! ## The folders inside a folder -/

namespace Listing

variable {t : FileTree} {l : Location} {n : Text}

/-- The names that a listing gives are those of the folders inside. -/
theorem mem_folders_iff (listing : Listing) : n ∈ listing.folders t l ↔ t.isFolderAt (l ++ [n]) = true := by
  rw [folders, List.mem_filter, (listing.perm t l).mem_iff, FileTree.mem_namesIn_iff]
  exact and_iff_right_of_imp fun hfolder => ⟨.folder, FileTree.isFolderAt_iff.1 hfolder⟩

/-- A listing gives each name once. -/
theorem nodup_folders (listing : Listing) (h : (t.entries.map Prod.fst).Nodup) (l : Location) :
    (listing.folders t l).Nodup :=
  ((listing.perm t l).nodup_iff.2 (FileTree.nodup_namesIn h l)).filter _

end Listing

namespace Files

variable {t u : FileTree} {region : Location → Bool} {p : Path} {l : Location}

/-! ## One folder -/

/-- A visit of a folder at `l` stops, with `u` left: some folder at or below it is still there with all that leads
to it, but its path does not lead to it, or the system does not take that path.  Nothing was pruned on the
visit but what lies below `l`. -/
def Lost (t : FileTree) (region : Location → Bool) (p : Path) (l : Location) (u : FileTree) : Prop :=
  ∃ region' names, u = t.prune region' ∧ FileTree.GrowsBelow l region region' ∧
    (∀ front, front <+: names → region' (l ++ front) = false) ∧
    t.isFolderAt (l ++ names) = true ∧ u.find (p.below names) ≠ .ok (l ++ names)

/-- A visit stops at a folder to which its path does not lead. -/
theorem lost_of_find {region' : Location → Bool} (hfolder : t.isFolderAt l = true)
    (hgrows : FileTree.GrowsBelow l region region') (hl : region l = false)
    (hfind : (t.prune region').find p ≠ .ok l) : Lost t region p l (t.prune region') := by
  refine ⟨region', [], rfl, hgrows, fun front hfront => ?_, ?_, ?_⟩
  · rw [List.prefix_nil.1 hfront, List.append_nil, hgrows.eq_false hl]
  · rwa [List.append_nil]
  · rwa [List.append_nil]

/-- A visit that stops inside a folder stops in that folder. -/
theorem Lost.of_inside {region' : Location → Bool} {n : Text} (h : Lost t region' (p.join n) (l ++ [n]) u)
    (hgrows : FileTree.GrowsBelow l region region') (hl : region l = false) : Lost t region p l u := by
  obtain ⟨pruned, names, rfl, hinside, hway, hfolder, hlost⟩ := h
  have hpruned := hgrows.of_inside hinside
  refine ⟨pruned, n :: names, rfl, hpruned, fun front hfront => ?_, ?_, ?_⟩
  · cases front with
    | nil => rw [List.append_nil, hpruned.eq_false hl]
    | cons c front =>
      obtain ⟨rfl, hrest⟩ := List.cons_prefix_cons.1 hfront
      rw [List.append_cons]
      exact hway front hrest
  · rwa [List.append_cons]
  · rwa [List.append_cons]

/-- The path of a folder leads to it in a pruned tree, or it cannot be listed. -/
theorem openFolder_prune (hp : FileTree.checkPath p = .ok () → t.Names p l) (hfolder : t.isFolderAt l = true)
    (hl : region l = false) :
    ((t.prune region).Names p l ∧ (t.prune region).openFolder p = .ok l) ∨
      ((t.prune region).find p ≠ .ok l ∧ ∃ fault, (t.prune region).openFolder p = .error fault) := by
  cases hfind : (t.prune region).find p with
  | error fault =>
    refine .inr ⟨by simp, fault, ?_⟩
    unfold FileTree.openFolder
    rw [hfind]
    rfl
  | ok m =>
    have hnames := hp (FileTree.exists_walk_of_find hfind).1
    obtain ⟨rfl, hthere⟩ := hnames.of_find hfolder FileTree.keeps_prune rfl hfind
    exact .inl ⟨hthere, FileTree.openFolder_of_find hfind (by rwa [FileTree.isFolderAt_prune_of_not hl])⟩

/-- An empty folder goes, and any other stays. -/
theorem deleteIfEmpty_of_names (hnames : u.Names p l) (hfolder : u.isFolderAt l = true)
    (hopen : u.openFolder p = .ok l) :
    deleteIfEmpty u p = .ok (if (u.namesIn l).isEmpty then u.remove l else u) := by
  unfold deleteIfEmpty
  rw [hopen, hnames.deleteFolder hfolder]
  cases hempty : (u.namesIn l).isEmpty <;> simp [bind, Except.bind, hempty, atPath, Except.mapError]

/-- A folder that cannot be opened is not deleted, and the fault is told with its path. -/
theorem deleteIfEmpty_of_error {fault : SystemFault} (hopen : u.openFolder p = .error fault) :
    deleteIfEmpty u p = .error (.access p (.system fault)) := by
  unfold deleteIfEmpty
  rw [hopen]
  rfl

/-! ## Folders inside a folder -/

/-- How a visit of a folder comes out: the folder and all below it is pruned, or the visit stops. -/
def Visited (t : FileTree) (region : Location → Bool) (p : Path) (l : Location)
    (result : FileTree × Except StoreError Unit) : Prop :=
  result = (t.prune (under region [l]), .ok ()) ∨ ∃ e u, result = (u, .error e) ∧ Lost t region p l u

/-- Visits of the folders inside a folder prune one after the other. -/
theorem visitEach_cases {visit : FileTree → Path → FileTree × Except StoreError Unit} {folders : List Text}
    (hvisit : ∀ n ∈ folders, ∀ region', (∀ m, l ++ [n] <+: m → region' m = false) →
      Visited t region' (p.join n) (l ++ [n]) (visit (t.prune region') (p.join n)))
    (hnodup : folders.Nodup) {region' : Location → Bool} (hgrows : FileTree.GrowsBelow l region region')
    (hl : region l = false) (hfree : ∀ n ∈ folders, ∀ m, l ++ [n] <+: m → region' m = false) :
    visitEach visit (t.prune region') (folders.map p.join) =
        (t.prune (under region' (folders.map fun n => l ++ [n])), .ok ()) ∨
      ∃ e u, visitEach visit (t.prune region') (folders.map p.join) = (u, .error e) ∧ Lost t region p l u := by
  induction folders generalizing region' with
  | nil =>
    have hsame : under region' [] = region' := by
      funext m
      simp [under]
    exact .inl (by rw [List.map_nil, List.map_nil, hsame]; rfl)
  | cons n folders ih =>
    obtain ⟨hn, hrest⟩ := List.nodup_cons.1 hnodup
    rw [List.map_cons, List.map_cons, visitEach]
    rcases hvisit n List.mem_cons_self region' (hfree n List.mem_cons_self) with h | ⟨e, u, h, hlost⟩
    · rw [h, FileTree.under_cons region' (l ++ [n]) (folders.map fun n => l ++ [n])]
      refine ih (fun n' hmem => hvisit n' (List.mem_cons_of_mem n hmem)) hrest (hgrows.under_inside [n]) ?_
      intro n' hmem m hm
      have hne : n' ≠ n := fun heq => hn (heq ▸ hmem)
      rw [← Bool.not_eq_true, FileTree.under_iff]
      simp [hfree n' (List.mem_cons_of_mem n hmem) m hm, FileTree.not_prefix_of_ne hne hm]
    · rw [h]
      exact .inr ⟨e, u, rfl, hlost.of_inside hgrows hl⟩

/-! ## Folders with all below them -/

section Inside

variable {folders : List Text} (htree : t.IsTree) (hfolder : t.isFolderAt l = true)
  (hp : FileTree.checkPath p = .ok () → t.Names p l) (hl : region l = false)
  (hfolders : ∀ n, n ∈ folders ↔ t.isFolderAt (l ++ [n]) = true)
include htree hfolder hp hl hfolders

/-- Once the folders inside a folder are pruned, it goes itself, if it is hollow, or its path does not lead to
it. -/
theorem deleteIfEmpty_prune_inside :
    deleteIfEmpty (t.prune (under region (folders.map fun n => l ++ [n]))) p =
        .ok (t.prune (under region [l])) ∨
      ∃ e, deleteIfEmpty (t.prune (under region (folders.map fun n => l ++ [n]))) p = .error e ∧
        Lost t region p l (t.prune (under region (folders.map fun n => l ++ [n]))) := by
  have hgrows := (FileTree.GrowsBelow.refl l region).under_inside folders
  have hnot := hgrows.eq_false hl
  rcases openFolder_prune hp hfolder hnot with ⟨hthere, hopen⟩ | ⟨hlost, fault, hopen⟩
  · refine .inl ?_
    rw [deleteIfEmpty_of_names hthere (by rwa [FileTree.isFolderAt_prune_of_not hnot]) hopen,
      FileTree.isEmpty_namesIn_prune_inside htree hfolders hfolder]
    cases hcontent : t.hasContent l with
    | true => exact congrArg Except.ok (FileTree.prune_inside_of_hasContent htree hfolders hcontent)
    | false => exact congrArg Except.ok (FileTree.remove_prune_inside htree hfolders hcontent)
  · exact .inr ⟨_, deleteIfEmpty_of_error hopen, lost_of_find hfolder hgrows hl hlost⟩

end Inside

/-- A visit prunes a folder with all below it, or it stops.  The system may not take the path of a folder that was
put together on the way, so that the path is known to name the folder only if it does. -/
theorem visitFolder_cases (htree : t.IsTree) (listing : Listing) (levels : Nat) {region : Location → Bool}
    {p : Path} {l : Location} (hfolder : t.isFolderAt l = true)
    (hp : FileTree.checkPath p = .ok () → t.Names p l) (hfree : ∀ m, l <+: m → region m = false)
    (hlevels : ∀ m entry, l <+: m → t.entryAt? m = some entry → m.length < l.length + levels) :
    Visited t region p l (visitFolder listing levels (t.prune region) p) := by
  induction levels generalizing region p l with
  | zero => exact absurd (hlevels l _ (List.prefix_refl l) (FileTree.isFolderAt_iff.1 hfolder)) (Nat.lt_irrefl _)
  | succ levels ih =>
    have hl : region l = false := hfree l (List.prefix_refl l)
    rcases openFolder_prune hp hfolder hl with ⟨hthere, hopen⟩ | ⟨hlost, fault, hopen⟩
    · have hfolders : ∀ n, n ∈ listing.folders (t.prune region) l ↔ t.isFolderAt (l ++ [n]) = true := by
        intro n
        rw [listing.mem_folders_iff, FileTree.isFolderAt_prune_of_not (hfree _ (List.prefix_append l [n]))]
      have hvisit : ∀ n ∈ listing.folders (t.prune region) l, ∀ region',
          (∀ m, l ++ [n] <+: m → region' m = false) →
          Visited t region' (p.join n) (l ++ [n]) (visitFolder listing levels (t.prune region') (p.join n)) := by
        -- Whatever was pruned beside a folder inside, the way to it leads through folders that are visited later.
        intro n hmem region' hfree'
        have hn := (hfolders n).1 hmem
        refine ih hn (fun htaken => ?_) hfree' fun m entry hm hentry => ?_
        · have hnames : t.Names p l := hthere.keeps FileTree.keeps_prune rfl
          exact hnames.join hfolder (htree.isEntryName (FileTree.isFolderAt_iff.1 hn)) htaken
        · have hlength := hlevels m entry ((List.prefix_append l [n]).trans hm) hentry
          rw [List.length_append, List.length_singleton]
          omega
      rw [visitFolder, hopen]
      dsimp only
      rcases visitEach_cases hvisit (listing.nodup_folders htree.nodup_prune l) (.refl l region) hl
          (fun n _ m hm => hfree m ((List.prefix_append l [n]).trans hm)) with h | ⟨e, u, h, hlost⟩
      · rw [h]
        dsimp only
        rcases deleteIfEmpty_prune_inside htree hfolder hp hl hfolders with h | ⟨e, h, hlost⟩
        · rw [h]
          exact .inl rfl
        · rw [h]
          exact .inr ⟨e, _, rfl, hlost⟩
      · rw [h]
        exact .inr ⟨e, u, rfl, hlost⟩
    · refine .inr ⟨.walk p fault, t.prune region, ?_, lost_of_find hfolder (.refl l region) hl hlost⟩
      rw [visitFolder, hopen]

/-! ## Paths that are never lost -/

/-- A visit does not stop, if the path of the folder leads to it in the tree without the hollow folders below it, and
if no path below it is too long. -/
theorem not_lost (htree : t.IsTree) (hnames : (t.prune (FileTree.isBelow l)).Names p l)
    (hlength : ∀ names, t.isFolderAt (l ++ names) = true →
      (Utf8.encode (p.below names)).length ≤ FileTree.pathLimit) :
    ¬ Lost t (fun _ => false) p l u := by
  rintro ⟨region, names, rfl, hregion, hway, hthere, hlost⟩
  have hkeeps : Keeps (t.prune (FileTree.isBelow l)) (t.prune region) :=
    FileTree.keeps_prune_prune fun m hm => (hregion m hm).resolve_left Bool.false_ne_true
  have hfolders : ∀ front, front <+: names → (t.prune region).isFolderAt (l ++ front) = true := by
    rintro front ⟨back, rfl⟩
    rw [FileTree.isFolderAt_prune_of_not (hway front (List.prefix_append front back))]
    by_cases hback : back = []
    · rwa [hback, List.append_nil] at hthere
    · rw [← List.append_assoc] at hthere
      exact htree.isFolderAt_of_append hback (FileTree.isFolderAt_iff.1 hthere)
  have hbelow : ∀ front, front <+: names → (t.prune region).Names (p.below front) (l ++ front) := by
    intro front
    induction front using List.reverseRecOn with
    | nil =>
      intro _
      rw [List.append_nil]
      exact hnames.keeps hkeeps rfl
    | append_singleton front n ih =>
      intro hfront
      have habove : front <+: names := (List.prefix_append front [n]).trans hfront
      have hnext : t.entryAt? (l ++ front ++ [n]) = some .folder := by
        have hpruned := hfolders _ hfront
        rw [FileTree.isFolderAt_prune_of_not (hway _ hfront), ← List.append_assoc] at hpruned
        exact FileTree.isFolderAt_iff.1 hpruned
      have hentry := htree.isEntryName hnext
      have hlast : (Utf8.encode ((p.below front).join n)).length ≤ FileTree.pathLimit := by
        rw [← Path.below_concat]
        exact hlength _ (by rw [← List.append_assoc]; exact FileTree.isFolderAt_iff.2 hnext)
      obtain ⟨folder, last, left, hends, -⟩ := ih habove
      rw [Path.below_concat, ← List.append_assoc]
      exact (ih habove).join (hfolders front habove) hentry (FileTree.checkPath_join hends.taken hentry hlast)
  exact hlost ((hbelow names (List.prefix_refl names)).find (hfolders names (List.prefix_refl names)))

/-! ## Deleting -/

/-- Under a path that names no folder nothing is deleted. -/
theorem deleteEmptyFolders_of_not_folder (listing : Listing) (h : ∀ l, t.entryNamed p ≠ .ok (l, .folder)) :
    deleteEmptyFolders listing t p = (t, .ok ()) := by
  unfold deleteEmptyFolders
  split
  · rename_i l hfolder
    exact absurd hfolder (h l)
  · rfl

section Root

variable {before : List Text} {n : Text} (htree : t.IsTree)
  (hlast : FileTree.splitLast p = (before, .name n false))
include htree hlast

/-- Under a path that names a folder, that folder is visited. -/
theorem deleteEmptyFolders_cases (listing : Listing) (hroot : t.entryNamed p = .ok (l, .folder)) :
    Visited t (fun _ => false) p l (deleteEmptyFolders listing t p) := by
  obtain ⟨hnames, hentry⟩ := FileTree.names_of_entryNamed hlast hroot
  have hvisited := visitFolder_cases htree listing (t.depth + 1) (FileTree.isFolderAt_iff.2 hentry)
    (fun _ => hnames) (fun _ _ => rfl) fun m entry _ hthere => by
      have hlength := FileTree.length_le_depth hthere
      omega
  rw [FileTree.prune_eq_self fun _ _ _ => rfl] at hvisited
  unfold deleteEmptyFolders
  rwa [hroot]

/-- Only what lies at or below the root is pruned, whatever comes out. -/
theorem exists_prune_of_deleteEmptyFolders (listing : Listing) (hroot : t.entryNamed p = .ok (l, .folder)) :
    ∃ region, (deleteEmptyFolders listing t p).1 = t.prune region ∧ ∀ m, region m = true → l <+: m := by
  rcases deleteEmptyFolders_cases htree hlast listing hroot with h | ⟨e, u, h, region, names, rfl, hregion, -⟩
  · refine ⟨_, congrArg Prod.fst h, fun m hm => ?_⟩
    simpa [FileTree.under_iff] using hm
  · refine ⟨region, congrArg Prod.fst h, fun m hm => ?_⟩
    exact (FileTree.isBelow_iff.1 ((hregion m hm).resolve_left Bool.false_ne_true)).1

/-- In a tree without hollow folders at or below the root nothing changes. -/
theorem deleteEmptyFolders_fst_eq_self (listing : Listing) (hroot : t.entryNamed p = .ok (l, .folder))
    (hfull : ∀ m ∈ t.entries.map Prod.fst, l <+: m → t.hasContent m = true) :
    (deleteEmptyFolders listing t p).1 = t := by
  obtain ⟨region, h, hregion⟩ := exists_prune_of_deleteEmptyFolders htree hlast listing hroot
  rw [h]
  refine FileTree.prune_eq_self fun m hmem hcontent => Bool.eq_false_iff.2 fun hm => ?_
  rw [hfull m hmem (hregion m hm)] at hcontent
  cases hcontent

/-- All goes well, if the path of the root leads to it without the hollow folders below it, and if no path below
it is too long. -/
theorem deleteEmptyFolders_snd_eq_ok (listing : Listing) (hroot : t.entryNamed p = .ok (l, .folder))
    (hway : (t.prune (FileTree.isBelow l)).exists? p = true)
    (hlength : ∀ names, t.isFolderAt (l ++ names) = true →
      (Utf8.encode (p.below names)).length ≤ FileTree.pathLimit) :
    (deleteEmptyFolders listing t p).2 = .ok () := by
  obtain ⟨hnames, hentry⟩ := FileTree.names_of_entryNamed hlast hroot
  have hthere : (t.prune (FileTree.isBelow l)).Names p l := by
    unfold FileTree.exists? at hway
    cases hfind : (t.prune (FileTree.isBelow l)).find p with
    | error fault =>
      rw [hfind] at hway
      cases hway
    | ok m => exact (hnames.of_find (FileTree.isFolderAt_iff.2 hentry) FileTree.keeps_prune rfl hfind).2
  rcases deleteEmptyFolders_cases htree hlast listing hroot with h | ⟨e, u, -, hlost⟩
  · exact congrArg Prod.snd h
  · exact absurd hlost (not_lost htree hthere hlength)

/-- Doing it again changes nothing. -/
theorem deleteEmptyFolders_prune (listing : Listing) (hroot : t.entryNamed p = .ok (l, .folder)) :
    (deleteEmptyFolders listing (t.prune l.isPrefixOf) p).1 = t.prune l.isPrefixOf ∧
      ((∀ names, t.isFolderAt (l ++ names) = true →
        (Utf8.encode (p.below names)).length ≤ FileTree.pathLimit) →
        (deleteEmptyFolders listing (t.prune l.isPrefixOf) p).2 = .ok ()) := by
  by_cases hagain : ∃ m, (t.prune l.isPrefixOf).entryNamed p = .ok (m, .folder)
  · obtain ⟨m, hagain⟩ := hagain
    have htree' : (t.prune l.isPrefixOf).IsTree := htree.prune_isPrefixOf l
    obtain ⟨hnames, hentry⟩ := FileTree.names_of_entryNamed hlast hroot
    obtain ⟨hnames', hentry'⟩ := FileTree.names_of_entryNamed hlast hagain
    have hfind := hnames'.find (FileTree.isFolderAt_iff.2 hentry')
    obtain ⟨rfl, -⟩ := hnames.of_find (FileTree.isFolderAt_iff.2 hentry) FileTree.keeps_prune rfl hfind
    have hfull : ∀ a ∈ (t.prune m.isPrefixOf).entries.map Prod.fst, m <+: a →
        (t.prune m.isPrefixOf).hasContent a = true := by
      intro a hmem ha
      rw [FileTree.hasContent_prune]
      exact (FileTree.mem_locations_prune.1 hmem).2 (List.isPrefixOf_iff_prefix.2 ha)
    refine ⟨deleteEmptyFolders_fst_eq_self htree' hlast listing hagain hfull, fun hlength => ?_⟩
    refine deleteEmptyFolders_snd_eq_ok htree' hlast listing hagain ?_ fun names hfolder =>
      hlength names (FileTree.keeps_prune.isFolderAt hfolder)
    have hsame : (t.prune m.isPrefixOf).prune (FileTree.isBelow m) = t.prune m.isPrefixOf := by
      refine FileTree.prune_eq_self fun a hmem hcontent => Bool.eq_false_iff.2 fun ha => ?_
      rw [hfull a hmem (FileTree.isBelow_iff.1 ha).1] at hcontent
      cases hcontent
    rw [hsame, FileTree.exists?, hfind]
  · rw [deleteEmptyFolders_of_not_folder listing fun m hm => hagain ⟨m, hm⟩]
    exact ⟨rfl, fun _ => rfl⟩

end Root

/-- Deleting empty folders takes nothing but hollow folders at or below the root, whatever comes out: files, links,
folders that hold some and all that lies elsewhere stay as they are.  A root that is missing, a file or a link is
left alone.

If it succeeds, all hollow folders at or below the root are gone, so that no folder there is empty, and doing it
again changes nothing.  It succeeds, if the path of the root leads somewhere when the hollow folders below the root
are gone, and if no path of a folder below the root is too long for the system. -/
theorem deleteEmptyFolders_prunes (listing : Listing) {t : FileTree} (htree : t.IsTree) {root : Path}
    {before : List Text} {n : Text} (hlast : FileTree.splitLast root = (before, .name n false)) :
    ((∀ l, t.entryNamed root ≠ .ok (l, .folder)) → deleteEmptyFolders listing t root = (t, .ok ())) ∧
    ∀ l, t.entryNamed root = .ok (l, .folder) →
      ∀ u r, deleteEmptyFolders listing t root = (u, r) →
        u.workingFolder = t.workingFolder ∧
        (∀ m, ¬ (l <+: m ∧ t.Hollow m) → u.entryAt? m = t.entryAt? m) ∧
        (r = .ok () →
          (∀ m, l <+: m → t.Hollow m → u.entryAt? m = none) ∧
          (∀ m, l <+: m → u.isFolderAt m = true → u.namesIn m ≠ []) ∧
          ∀ listing', (deleteEmptyFolders listing' u root).1 = u) ∧
        ((t.prune (FileTree.isBelow l)).exists? root = true →
          (∀ names, t.isFolderAt (l ++ names) = true →
            (Utf8.encode (root.below names)).length ≤ FileTree.pathLimit) →
          r = .ok () ∧ ∀ listing', (deleteEmptyFolders listing' u root).2 = .ok ()) := by
  refine ⟨deleteEmptyFolders_of_not_folder listing, fun l hroot u r h => ?_⟩
  have hl : l ≠ [] := (FileTree.names_of_entryNamed hlast hroot).1.ne_nil
  obtain ⟨region, hu, hregion⟩ := exists_prune_of_deleteEmptyFolders htree hlast listing hroot
  replace hu : u = t.prune region := by rwa [h] at hu
  have hpruned : r = .ok () → u = t.prune l.isPrefixOf := by
    rintro rfl
    rcases deleteEmptyFolders_cases htree hlast listing hroot with h' | ⟨e, u', h', -⟩
    · rw [h, FileTree.under_singleton] at h'
      exact congrArg Prod.fst h'
    · rw [h] at h'
      cases congrArg Prod.snd h'
  have hagain := fun listing' => deleteEmptyFolders_prune htree hlast listing' hroot
  refine ⟨by rw [hu]; rfl, fun m hm => ?_, fun hr => ⟨?_, ?_, ?_⟩, fun hway hlength => ?_⟩
  · rw [hu]
    exact htree.entryAt?_prune_of_not_hollow fun hin hhollow => hm ⟨hregion m hin, hhollow⟩
  · intro m hm hhollow
    have hroot' : m ≠ [] := fun hempty => hl (List.prefix_nil.1 (hempty ▸ hm))
    rw [hpruned hr]
    exact htree.entryAt?_prune_of_hollow hroot' (List.isPrefixOf_iff_prefix.2 hm) hhollow
  · rw [hpruned hr]
    intro m hm hfolder
    have hroot' : m ≠ [] := fun hempty => hl (List.prefix_nil.1 (hempty ▸ hm))
    have hmem := (FileTree.mem_locations_iff hroot').2 ⟨_, FileTree.isFolderAt_iff.1 hfolder⟩
    have hcontent : (t.prune l.isPrefixOf).hasContent m = true := by
      rw [FileTree.hasContent_prune]
      exact (FileTree.mem_locations_prune.1 hmem).2 (List.isPrefixOf_iff_prefix.2 hm)
    obtain ⟨n, entry, hinside, -⟩ :=
      (htree.prune_isPrefixOf l).exists_inside_of_hasContent hfolder hcontent
    exact List.ne_nil_of_mem (FileTree.mem_namesIn_iff.2 ⟨entry, hinside⟩)
  · rw [hpruned hr]
    exact fun listing' => (hagain listing').1
  · have hr : r = .ok () := by
      have hok := deleteEmptyFolders_snd_eq_ok htree hlast listing hroot hway hlength
      rwa [h] at hok
    refine ⟨hr, ?_⟩
    rw [hpruned hr]
    exact fun listing' => (hagain listing').2 hlength

/-- A folder that holds a link and, two levels deep, folders. -/
def linked : FileTree :=
  ⟨[([['a']], .folder), ([['a'], ['x']], .folder), ([['a'], ['x'], ['y']], .folder),
    ([['a'], ['l']], .link ['x'])], []⟩

/-- Links and folders may stand beside each other in a tree. -/
theorem isTree_linked : linked.IsTree := ⟨by decide, by decide, by decide⟩

/-- The folder stays with its link, and the folders inside it go, although the link leads to one of them. -/
theorem deleteEmptyFolders_prunes_linked :
    (deleteEmptyFolders .alphabetical linked ['a']).2 = .ok () ∧
      (deleteEmptyFolders .alphabetical linked ['a']).1.entryAt? [['a'], ['x']] = none ∧
      (deleteEmptyFolders .alphabetical linked ['a']).1.entryAt? [['a'], ['l']] = some (.link ['x']) := by
  have hroot : linked.entryNamed ['a'] = .ok ([['a']], .folder) := rfl
  obtain ⟨-, hfolder⟩ :=
    deleteEmptyFolders_prunes .alphabetical isTree_linked (rfl : FileTree.splitLast ['a'] = ([], _))
  obtain ⟨-, hkept, hgone, hok⟩ := hfolder [['a']] hroot (deleteEmptyFolders .alphabetical linked ['a']).1
    (deleteEmptyFolders .alphabetical linked ['a']).2 rfl
  have hlength : ∀ names, linked.isFolderAt ([['a']] ++ names) = true →
      (Utf8.encode (Path.below ['a'] names)).length ≤ FileTree.pathLimit := by
    intro names hthere
    have hmem := (FileTree.mem_locations_iff (by simp)).2 ⟨_, FileTree.isFolderAt_iff.1 hthere⟩
    obtain rfl | rfl | rfl | rfl : names = [] ∨ names = [['x']] ∨ names = [['x'], ['y']] ∨ names = [['l']] := by
      simpa [linked] using hmem
    all_goals decide
  have hsuccess := (hok (by decide) hlength).1
  refine ⟨hsuccess, (hgone hsuccess).1 _ (by decide) (isTree_linked.hollow_iff.2 ⟨rfl, rfl⟩), ?_⟩
  rw [hkept]
  · rfl
  · rintro ⟨-, hhollow, -⟩
    cases hhollow

/-! ## Where deleting stops -/

/-- A folder with an empty folder inside. -/
def nested : FileTree := ⟨[([['a']], .folder), ([['a'], ['x']], .folder)], []⟩

/-- One folder inside another one is a tree. -/
theorem isTree_nested : nested.IsTree := ⟨by decide, by decide, by decide⟩

/-- The outer folder behind any number of slashes. -/
def slashed (k : Nat) : Path := List.replicate k '/' ++ ['a']

/-- However many slashes stand in front, the path ends in the name of the folder. -/
theorem endsIn_slashed {k : Nat} (hk : k < FileTree.pathLimit) :
    nested.EndsIn FileTree.linkLimit nested.workingFolder (slashed k) [] ['a'] FileTree.linkLimit := by
  have htaken : FileTree.checkPath (slashed k) = .ok () := by
    refine FileTree.checkPath_eq_ok_iff.2 ⟨by simp [slashed, List.mem_replicate], by simp [slashed], ?_⟩
    rw [slashed, Utf8.length_encode_replicate_append (by decide)]
    exact hk
  have hbase : FileTree.baseOf nested.workingFolder (slashed k) = [] := ite_self _
  obtain ⟨follow, hfollow⟩ := nested.exists_walk_eq_walkParts FileTree.linkLimit [] (List.replicate k [])
  refine ⟨htaken, by decide, by decide, rfl, List.replicate k [], Text.splitOn_replicate_append '/' k ['a'], ?_⟩
  rw [hbase, hfollow, FileTree.walkParts_replicate_nil rfl]

/-- A walk stops at the inner folder, if only its path is too long. -/
theorem deleteEmptyFolders_slashed {k : Nat} (hk : k < FileTree.pathLimit) (hlong : FileTree.pathLimit < k + 3) :
    deleteEmptyFolders .alphabetical nested (slashed k) =
      (nested, .error (.walk (slashed k ++ ['/', 'x']) .nameTooLong)) := by
  have hends := endsIn_slashed hk
  have hroot : nested.entryNamed (slashed k) = .ok ([['a']], .folder) :=
    FileTree.entryNamed_of_endsIn hends rfl
  have hnames : nested.Names (slashed k) [['a']] := ⟨_, _, _, hends, rfl⟩
  have hopen : nested.openFolder (slashed k) = .ok [['a']] := FileTree.openFolder_of_find (hnames.find rfl) rfl
  have hjoin : (slashed k).join ['x'] = slashed k ++ ['/', 'x'] :=
    Path.join_of_splitOn (Text.splitOn_replicate_append '/' k ['a']) (by decide) rfl
  have hcheck : FileTree.checkPath (slashed k ++ ['/', 'x']) = .error .nameTooLong := by
    have hlength : (Utf8.encode (slashed k ++ ['/', 'x'])).length = k + 3 := by
      rw [slashed, List.append_assoc, Utf8.length_encode_replicate_append (by decide)]
      rfl
    unfold FileTree.checkPath
    rw [if_neg (by simp [slashed, List.mem_replicate]), if_neg (by simp [slashed]), if_pos (by rwa [hlength])]
  have hinside : nested.openFolder (slashed k ++ ['/', 'x']) = .error .nameTooLong := by
    rw [FileTree.openFolder, FileTree.find, hcheck]
    rfl
  have hlisted : Listing.alphabetical.folders nested [['a']] = [['x']] := by decide +kernel
  have hdepth : nested.depth = 2 := rfl
  unfold deleteEmptyFolders
  rw [hroot, hdepth]
  dsimp only
  rw [visitFolder, hopen]
  dsimp only
  rw [hlisted, List.map_singleton, hjoin, visitEach, visitFolder, hinside]

/-- The way to the root may lead through a folder that is empty, and the way to a folder below it may be too long:
then deleting stops, with an empty folder left. -/
theorem deleteEmptyFolders_stops :
    nested.IsTree ∧ nested.Hollow [['a']] ∧
      ((∃ before, FileTree.splitLast "a/x/../../a".toList = (before, .name ['a'] false)) ∧
        nested.entryNamed "a/x/../../a".toList = .ok ([['a']], .folder) ∧
        deleteEmptyFolders .alphabetical nested "a/x/../../a".toList =
          (⟨[([['a']], .folder)], []⟩, .error (.access "a/x/../../a".toList (.system .notFound)))) ∧
      ((∃ before, FileTree.splitLast (slashed 4094) = (before, .name ['a'] false)) ∧
        nested.entryNamed (slashed 4094) = .ok ([['a']], .folder) ∧
        deleteEmptyFolders .alphabetical nested (slashed 4094) =
          (nested, .error (.walk (slashed 4094 ++ ['/', 'x']) .nameTooLong))) := by
  have hhollow : nested.Hollow [['a']] := isTree_nested.hollow_iff.2 ⟨rfl, rfl⟩
  refine ⟨isTree_nested, hhollow, ⟨⟨_, rfl⟩, ?_, ?_⟩, ⟨List.replicate 4094 [], ?_⟩, ?_, ?_⟩
  · decide +kernel
  · decide +kernel
  · exact FileTree.splitLast_of_splitOn (Text.splitOn_replicate_append '/' 4094 ['a']) (by decide)
  · exact FileTree.entryNamed_of_endsIn (endsIn_slashed (by decide)) rfl
  · exact deleteEmptyFolders_slashed (by decide) (by decide)

end Files

end Infill
