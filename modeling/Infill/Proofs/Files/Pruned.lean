import Infill.Proofs.Files.Write
import Mathlib.Data.List.Induction
import Mathlib.Data.List.Nodup

/-!
# Trees without hollow folders

A folder is hollow if nothing but folders stands in it, however deep.  Pruning a region takes the hollow folders
away that lie in it, and nothing else (`entryAt?_prune`).

Pruning a folder with all below it comes down to its parts: once the folders inside are pruned, the folder is
empty exactly if it is hollow (`isEmpty_namesIn_prune_inside`).  If so, only the folder itself is left to be
removed (`remove_prune_inside`), and else nothing is (`prune_inside_of_hasContent`).
-/

set_option autoImplicit false

namespace Infill.FileTree

variable {t : FileTree} {l m : Location} {n : Text} {entry : Entry}

/-! ## Well-formed trees -/

/-- A name that the system gives to entries. -/
structure IsEntryName (n : Text) : Prop where
  isName : Path.IsName n
  fits : FitsName n
  noSlash : '/' ∉ n
  noZero : '\x00' ∉ n

instance (n : Text) : Decidable (IsEntryName n) :=
  decidable_of_iff (Path.IsName n ∧ FitsName n ∧ '/' ∉ n ∧ '\x00' ∉ n)
    ⟨fun ⟨h, h', h'', h'''⟩ => ⟨h, h', h'', h'''⟩, fun ⟨h, h', h'', h'''⟩ => ⟨h, h', h'', h'''⟩⟩

/-- No location is there twice, and every entry stands in a folder. -/
structure IsTree (t : FileTree) : Prop where
  nodup : (t.entries.map Prod.fst).Nodup
  names : ∀ l ∈ t.entries.map Prod.fst, l ≠ [] ∧ ∀ n ∈ l, IsEntryName n
  folders : ∀ l ∈ t.entries.map Prod.fst, t.isFolderAt l.dropLast = true

/-- A folder stands where the entry is one. -/
theorem isFolderAt_iff : t.isFolderAt l = true ↔ t.entryAt? l = some .folder := beq_iff_eq

/-- The locations of a tree are those where something stands. -/
theorem mem_locations_iff (hl : l ≠ []) : l ∈ t.entries.map Prod.fst ↔ ∃ entry, t.entryAt? l = some entry := by
  rw [← Entries.isSome_lookup_iff, Option.isSome_iff_exists, entryAt?, if_neg hl]

/-- The names in a folder are those under which something stands there. -/
theorem mem_namesIn_iff : n ∈ t.namesIn l ↔ ∃ entry, t.entryAt? (l ++ [n]) = some entry := by
  rw [← mem_locations_iff (by simp), namesIn, List.mem_mergeSort, List.mem_filterMap, List.mem_map]
  simp only [nameIn?_eq_some_iff]

/-- A folder lists each name once. -/
theorem nodup_namesIn (h : (t.entries.map Prod.fst).Nodup) (l : Location) : (t.namesIn l).Nodup := by
  have hlocations : (t.namesIn l).Perm ((t.entries.map Prod.fst).filterMap (nameIn? l)) := by
    rw [List.filterMap_map]
    exact List.mergeSort_perm _ _
  rw [hlocations.nodup_iff]
  refine h.filterMap fun m m' n hm hm' => ?_
  rw [nameIn?_eq_some_iff.1 hm, nameIn?_eq_some_iff.1 hm']

namespace IsTree

variable (h : t.IsTree)
include h

/-- What stands at a location is the entry there. -/
theorem entryAt?_eq_some_iff (hl : l ≠ []) : t.entryAt? l = some entry ↔ (l, entry) ∈ t.entries := by
  rw [entryAt?, if_neg hl, Entries.lookup_eq_some_iff h.nodup]

/-- Entries have names that the system gives. -/
theorem isEntryName (hentry : t.entryAt? (l ++ [n]) = some entry) : IsEntryName n :=
  (h.names _ ((mem_locations_iff (by simp)).2 ⟨_, hentry⟩)).2 n (by simp)

/-- On the way to an entry there are folders only. -/
theorem isFolderAt_of_append {more : List Text} (hmore : more ≠ []) (hentry : t.entryAt? (l ++ more) = some entry) :
    t.isFolderAt l = true := by
  induction more using List.reverseRecOn generalizing entry with
  | nil => exact absurd rfl hmore
  | append_singleton more n ih =>
    have hmem : l ++ more ++ [n] ∈ t.entries.map Prod.fst :=
      (mem_locations_iff (by simp)).2 ⟨entry, by rwa [List.append_assoc]⟩
    have hfolder := h.folders _ hmem
    rw [List.dropLast_concat] at hfolder
    by_cases hempty : more = []
    · rwa [hempty, List.append_nil] at hfolder
    · exact ih hempty (isFolderAt_iff.1 hfolder)

/-- The way to an entry below a folder leads through a folder inside it, if it is not one step long. -/
theorem isFolderAt_next {rest : List Text} (hentry : t.entryAt? (l ++ n :: rest) = some entry)
    (hlast : rest = [] → entry = .folder) : t.isFolderAt (l ++ [n]) = true := by
  by_cases hrest : rest = []
  · subst hrest
    obtain rfl := hlast rfl
    exact isFolderAt_iff.2 hentry
  · exact h.isFolderAt_of_append hrest (by simpa using hentry)

end IsTree

/-! ## Hollow folders -/

/-- A folder in which nothing but folders stands, however deep; links are not followed. -/
def Hollow (t : FileTree) (l : Location) : Prop :=
  t.isFolderAt l = true ∧ ∀ m entry, l <+: m → t.entryAt? m = some entry → entry = .folder

/-- Whether a file or a link stands at or below a location. -/
def hasContent (t : FileTree) (top : Location) : Bool :=
  t.entries.any fun (l, entry) => top.isPrefixOf l && entry != .folder

/-- There is content where an entry at or below is no folder. -/
theorem hasContent_iff_exists_mem :
    t.hasContent l = true ↔ ∃ m entry, (m, entry) ∈ t.entries ∧ l <+: m ∧ entry ≠ .folder := by
  simp [hasContent]

/-- Where there is content, there is content above. -/
theorem hasContent_of_below (hm : l <+: m) (h : t.hasContent m = true) : t.hasContent l = true := by
  obtain ⟨m', entry, hmem, hm', hentry⟩ := hasContent_iff_exists_mem.1 h
  exact hasContent_iff_exists_mem.2 ⟨m', entry, hmem, hm.trans hm', hentry⟩

/-- There is content where what stands at or below is no folder. -/
theorem IsTree.hasContent_iff (h : t.IsTree) :
    t.hasContent l = true ↔ ∃ m entry, l <+: m ∧ t.entryAt? m = some entry ∧ entry ≠ .folder := by
  rw [hasContent_iff_exists_mem]
  refine exists_congr fun m => exists_congr fun entry => ?_
  constructor
  · rintro ⟨hmem, hm, hentry⟩
    have hroot : m ≠ [] := (h.names m (List.mem_map.2 ⟨_, hmem, rfl⟩)).1
    exact ⟨hm, (h.entryAt?_eq_some_iff hroot).2 hmem, hentry⟩
  · rintro ⟨hm, hthere, hentry⟩
    have hroot : m ≠ [] := by
      rintro rfl
      exact hentry (by simpa [entryAt?] using hthere.symm)
    exact ⟨(h.entryAt?_eq_some_iff hroot).1 hthere, hm, hentry⟩

/-- A folder is hollow if it has no content. -/
theorem IsTree.hollow_iff (h : t.IsTree) : t.Hollow l ↔ t.isFolderAt l = true ∧ t.hasContent l = false := by
  refine and_congr_right fun _ => ?_
  rw [← Bool.not_eq_true, h.hasContent_iff]
  push Not
  rfl

/-- Something with content stands in a folder that has content. -/
theorem IsTree.exists_inside_of_hasContent (h : t.IsTree) (hfolder : t.isFolderAt l = true)
    (hcontent : t.hasContent l = true) :
    ∃ n entry, t.entryAt? (l ++ [n]) = some entry ∧ t.hasContent (l ++ [n]) = true := by
  obtain ⟨m, entry, ⟨more, rfl⟩, hentry, hother⟩ := h.hasContent_iff.1 hcontent
  obtain ⟨n, rest, rfl⟩ : ∃ n rest, more = n :: rest := by
    refine List.exists_cons_of_ne_nil ?_
    rintro rfl
    rw [List.append_nil, isFolderAt_iff.1 hfolder] at hentry
    exact hother (Option.some.inj hentry).symm
  have hinside : t.hasContent (l ++ [n]) = true := h.hasContent_iff.2 ⟨_, entry, ⟨rest, by simp⟩, hentry, hother⟩
  by_cases hrest : rest = []
  · subst hrest
    exact ⟨n, entry, hentry, hinside⟩
  · have hnext := h.isFolderAt_next hentry fun hempty => absurd hempty hrest
    exact ⟨n, .folder, isFolderAt_iff.1 hnext, hinside⟩

/-! ## Pruning -/

/-- The tree without the folders of a region that hold no content. -/
def prune (t : FileTree) (region : Location → Bool) : FileTree :=
  { t with entries := Entries.keepKeys (fun l => !region l || t.hasContent l) t.entries }

section Prune

variable {region region' : Location → Bool}

/-- Pruning takes away what is in the region and has no content. -/
theorem entryAt?_prune (hl : l ≠ []) :
    (t.prune region).entryAt? l = if region l = true ∧ t.hasContent l = false then none else t.entryAt? l := by
  rw [entryAt?, entryAt?, if_neg hl, if_neg hl, prune, Entries.lookup_keepKeys]
  cases region l <;> cases t.hasContent l <;> rfl

/-- Outside the region nothing changes, and what holds content stays. -/
theorem entryAt?_prune_of_kept (h : region l = true → t.hasContent l = true) :
    (t.prune region).entryAt? l = t.entryAt? l := by
  by_cases hl : l = []
  · subst hl
    rfl
  · rw [entryAt?_prune hl, if_neg]
    rintro ⟨hregion, hcontent⟩
    rw [h hregion] at hcontent
    cases hcontent

/-- Pruning takes nothing but hollow folders. -/
theorem IsTree.entryAt?_prune_of_not_hollow (htree : t.IsTree) (h : region l = true → ¬ t.Hollow l) :
    (t.prune region).entryAt? l = t.entryAt? l := by
  cases hentry : t.entryAt? l with
  | none =>
    rw [entryAt?_prune (by rintro rfl; simp [entryAt?] at hentry), hentry, ite_self]
  | some entry =>
    rw [← hentry]
    refine entryAt?_prune_of_kept fun hregion => Bool.of_not_eq_false fun hcontent => ?_
    refine h hregion (htree.hollow_iff.2 ⟨isFolderAt_iff.2 ?_, hcontent⟩)
    refine Decidable.of_not_not fun hother => ?_
    rw [hentry, Option.some.injEq] at hother
    rw [htree.hasContent_iff.2 ⟨l, entry, List.prefix_refl l, hentry, hother⟩] at hcontent
    cases hcontent

/-- Pruning takes every hollow folder of the region. -/
theorem IsTree.entryAt?_prune_of_hollow (htree : t.IsTree) (hl : l ≠ []) (hregion : region l = true)
    (h : t.Hollow l) : (t.prune region).entryAt? l = none := by
  rw [entryAt?_prune hl, if_pos ⟨hregion, (htree.hollow_iff.1 h).2⟩]

/-- Outside of the region folders stay. -/
theorem isFolderAt_prune_of_not (h : region l = false) : (t.prune region).isFolderAt l = t.isFolderAt l := by
  unfold isFolderAt
  rw [entryAt?_prune_of_kept (by simp [h])]

/-- The more is pruned, the less is left. -/
theorem keeps_prune_prune (h : ∀ l, region' l = true → region l = true) :
    Keeps (t.prune region) (t.prune region') := by
  intro l entry hentry
  refine .inl ?_
  by_cases hl : l = []
  · subst hl
    exact hentry
  · rw [entryAt?_prune hl] at hentry ⊢
    split at hentry
    · cases hentry
    · rename_i hkept
      rw [if_neg fun hgone => hkept ⟨h l hgone.1, hgone.2⟩]
      exact hentry

/-- Pruning depends on the region only where there are locations without content. -/
theorem prune_congr (h : ∀ l ∈ t.entries.map Prod.fst, t.hasContent l = false → region l = region' l) :
    t.prune region = t.prune region' := by
  have hentries : ∀ entry ∈ t.entries,
      (!region entry.1 || t.hasContent entry.1) = (!region' entry.1 || t.hasContent entry.1) := by
    intro entry hmem
    cases hcontent : t.hasContent entry.1 with
    | true => simp
    | false => rw [h entry.1 (List.mem_map.2 ⟨entry, hmem, rfl⟩) hcontent]
  unfold prune
  rw [Entries.keepKeys_eq_filter, Entries.keepKeys_eq_filter, List.filter_congr hentries]

/-- Without hollow folders in the region there is nothing to prune. -/
theorem prune_eq_self (h : ∀ l ∈ t.entries.map Prod.fst, t.hasContent l = false → region l = false) :
    t.prune region = t := by
  have hnone : t.prune (fun _ => false) = t := by
    unfold prune
    rw [Entries.keepKeys_eq_filter]
    simp
  rw [prune_congr h, hnone]

/-- The whole tree keeps what is left of it. -/
theorem keeps_prune : Keeps (t.prune region) t := by
  have hkeeps : Keeps (t.prune region) (t.prune fun _ => false) :=
    keeps_prune_prune fun _ hfalse => by cases hfalse
  rwa [prune_eq_self fun _ _ _ => rfl] at hkeeps

/-- What is left has no location twice. -/
theorem IsTree.nodup_prune (h : t.IsTree) : ((t.prune region).entries.map Prod.fst).Nodup :=
  h.nodup.sublist ((Entries.sublist_keepKeys _ _).map _)

/-- No content is pruned. -/
theorem hasContent_prune : (t.prune region).hasContent l = t.hasContent l := by
  rw [Bool.eq_iff_iff, hasContent_iff_exists_mem, hasContent_iff_exists_mem]
  refine exists_congr fun m => exists_congr fun entry => and_congr_left fun ⟨_, hentry⟩ => ?_
  rw [prune, Entries.keepKeys_eq_filter, List.mem_filter]
  refine and_iff_left_of_imp fun hmem => ?_
  rw [hasContent_iff_exists_mem.2 ⟨m, entry, hmem, List.prefix_refl m, hentry⟩, Bool.or_true]

/-- Removing a folder from a pruned tree is pruning it as well, if it is hollow. -/
theorem remove_prune (hl : t.hasContent l = false) :
    (t.prune region).remove l = t.prune fun m => region m || decide (m = l) := by
  unfold remove prune Entries.erase
  simp only [Entries.keepKeys_eq_filter, List.filter_filter, FileTree.mk.injEq, and_true]
  refine List.filter_congr fun entry _ => ?_
  by_cases heq : entry.1 = l
  · simp [heq, hl]
  · simp [heq]

/-- The locations that are left have content, or are outside of the region. -/
theorem mem_locations_prune : l ∈ (t.prune region).entries.map Prod.fst ↔
    l ∈ t.entries.map Prod.fst ∧ (region l = true → t.hasContent l = true) := by
  rw [prune, Entries.keepKeys_eq_filter, List.mem_map, List.mem_map]
  simp only [List.mem_filter, Bool.or_eq_true, Bool.not_eq_true']
  constructor
  · rintro ⟨entry, ⟨hmem, hkept⟩, rfl⟩
    exact ⟨⟨entry, hmem, rfl⟩, fun hregion => hkept.resolve_left (by simp [hregion])⟩
  · rintro ⟨⟨entry, hmem, rfl⟩, hkept⟩
    refine ⟨entry, ⟨hmem, ?_⟩, rfl⟩
    cases hregion : region entry.1 with
    | true => exact .inr (hkept hregion)
    | false => exact .inl rfl

/-- A pruned tree is well-formed, if with a location everything below it lies in the region. -/
theorem IsTree.prune (h : t.IsTree) (hregion : ∀ l m, region l = true → l <+: m → region m = true) :
    (t.prune region).IsTree := by
  refine ⟨h.nodup_prune, fun l hl => h.names l (mem_locations_prune.1 hl).1, fun l hl => ?_⟩
  obtain ⟨hthere, hkept⟩ := mem_locations_prune.1 hl
  have habove : l.dropLast <+: l := List.dropLast_prefix l
  have hfolder : (t.prune region).entryAt? l.dropLast = t.entryAt? l.dropLast :=
    entryAt?_prune_of_kept fun hin => hasContent_of_below habove (hkept (hregion _ _ hin habove))
  rw [isFolderAt_iff, hfolder]
  exact isFolderAt_iff.1 (h.folders l hthere)

end Prune

/-- What is left of a tree in which a location was pruned with all below it. -/
theorem IsTree.prune_isPrefixOf (h : t.IsTree) (l : Location) : (t.prune l.isPrefixOf).IsTree := by
  refine h.prune fun a b ha hb => ?_
  rw [List.isPrefixOf_iff_prefix] at ha ⊢
  exact ha.trans hb

/-! ## Pruning from the inside -/

/-- A region with what stands at or below some locations. -/
def under (region : Location → Bool) (tops : List Location) : Location → Bool :=
  fun l => region l || tops.any fun top => top.isPrefixOf l

/-- More is in the region at or below some locations. -/
theorem under_iff {region : Location → Bool} {tops : List Location} :
    under region tops l = true ↔ region l = true ∨ ∃ top ∈ tops, top <+: l := by
  simp [under]

/-- Locations may be taken into a region one after the other. -/
theorem under_cons (region : Location → Bool) (top : Location) (tops : List Location) :
    under region (top :: tops) = under (under region [top]) tops := by
  funext l
  simp [under, Bool.or_assoc]

/-- What stands at or below one location. -/
theorem under_singleton (l : Location) : under (fun _ => false) [l] = l.isPrefixOf := by
  funext m
  simp [under]

section Inside

variable {region : Location → Bool} {folders : List Text} (htree : t.IsTree)
  (hfolders : ∀ n, n ∈ folders ↔ t.isFolderAt (l ++ [n]) = true)
include htree hfolders

/-- Below a folder a location without content is in one of the folders inside. -/
theorem under_inside_eq (hthere : m ∈ t.entries.map Prod.fst) (hne : m ≠ l) (hcontent : t.hasContent m = false) :
    under region (folders.map fun n => l ++ [n]) m = under region [l] m := by
  rw [Bool.eq_iff_iff, under_iff, under_iff]
  refine or_congr_right ?_
  simp only [List.mem_map, exists_exists_and_eq_and, List.mem_singleton, exists_eq_left]
  constructor
  · rintro ⟨n, -, hm⟩
    exact (List.prefix_append l [n]).trans hm
  · rintro ⟨more, rfl⟩
    obtain ⟨n, rest, rfl⟩ : ∃ n rest, more = n :: rest :=
      List.exists_cons_of_ne_nil fun hempty => hne (by rw [hempty, List.append_nil])
    obtain ⟨entry, hentry⟩ := (mem_locations_iff (by simp)).1 hthere
    have hfolder : entry = .folder := by
      refine Decidable.of_not_not fun hother => ?_
      rw [htree.hasContent_iff.2 ⟨_, entry, List.prefix_refl _, hentry, hother⟩] at hcontent
      cases hcontent
    exact ⟨n, (hfolders n).2 (htree.isFolderAt_next hentry fun _ => hfolder), rest, by simp⟩

/-- Once the folders inside are pruned, a folder is empty exactly if it has no content. -/
theorem isEmpty_namesIn_prune_inside (hfolder : t.isFolderAt l = true) :
    ((t.prune (under region (folders.map fun n => l ++ [n]))).namesIn l).isEmpty = !t.hasContent l := by
  cases hcontent : t.hasContent l with
  | true =>
    obtain ⟨n, next, hnext, hinside⟩ := htree.exists_inside_of_hasContent hfolder hcontent
    have hmem : n ∈ (t.prune (under region (folders.map fun n => l ++ [n]))).namesIn l :=
      mem_namesIn_iff.2 ⟨next, by rw [entryAt?_prune_of_kept fun _ => hinside, hnext]⟩
    rw [Bool.not_true, List.isEmpty_eq_false_iff]
    exact List.ne_nil_of_mem hmem
  | false =>
    rw [Bool.not_false, List.isEmpty_iff, List.eq_nil_iff_forall_not_mem]
    intro n hmem
    obtain ⟨entry, hentry⟩ := mem_namesIn_iff.1 hmem
    rw [entryAt?_prune (by simp)] at hentry
    split at hentry
    · cases hentry
    · rename_i hkept
      have hinside : t.hasContent (l ++ [n]) = false := by
        refine Bool.eq_false_iff.2 fun htrue => ?_
        rw [hasContent_of_below (List.prefix_append l [n]) htrue] at hcontent
        cases hcontent
      have hunder : under region (folders.map fun n => l ++ [n]) (l ++ [n]) = true := by
        rw [under_inside_eq htree hfolders ((mem_locations_iff (by simp)).2 ⟨entry, hentry⟩) (by simp) hinside,
          under_iff]
        exact .inr ⟨l, List.mem_singleton_self l, List.prefix_append l [n]⟩
      exact hkept ⟨hunder, hinside⟩

/-- A folder with content stays when the folders inside it are pruned, and then there is nothing left to prune. -/
theorem prune_inside_of_hasContent (hcontent : t.hasContent l = true) :
    t.prune (under region (folders.map fun n => l ++ [n])) = t.prune (under region [l]) := by
  refine prune_congr fun m hthere hm => under_inside_eq htree hfolders hthere ?_ hm
  rintro rfl
  rw [hcontent] at hm
  cases hm

/-- Of a hollow folder only itself is left when the folders inside it are pruned. -/
theorem remove_prune_inside (hcontent : t.hasContent l = false) :
    (t.prune (under region (folders.map fun n => l ++ [n]))).remove l = t.prune (under region [l]) := by
  rw [remove_prune hcontent]
  refine prune_congr fun m hthere hm => ?_
  by_cases heq : m = l
  · subst heq
    have hunder : under region [m] m = true := under_iff.2 (.inr ⟨m, List.mem_singleton_self m, List.prefix_refl m⟩)
    rw [hunder, decide_eq_true rfl, Bool.or_true]
  · rw [under_inside_eq htree hfolders hthere heq hm, decide_eq_false heq, Bool.or_false]

end Inside

end Infill.FileTree
