import Mathlib.Data.List.Induction
import Infill.Keyed

/-!
# Sorted keyed lists

A keyed list whose keys increase holds each key once, so that its entries and what `Keyed.get?` finds
are the same thing (`ext_of_sorted`).  Inserting keeps the keys increasing, and so a list built by insertions is sorted
(`sorted_ofList`).  Of several entries with one key the last one inserted is found
(`get?_ofList_eq_some_iff`), and inserted entries go before those that were there
(`get?_foldl_insert`).
-/

set_option autoImplicit false

namespace Infill.Keyed

variable {α : Type}

/-- Of two different keys one comes first. -/
theorem lt_of_ne_of_not_lt {key other : Text} (hne : key ≠ other) (hlt : ¬ key < other) :
    other < key := by
  by_cases h : other < key
  · exact h
  · exact absurd (List.le_antisymm (List.not_lt.1 h) (List.not_lt.1 hlt)) hne

/-! ## Putting in order -/

/-- Things that are sorted by a text stand in its order. -/
theorem pairwise_mergeSort {β : Type} (key : β → Text) (items : List β) :
    (items.mergeSort fun a b => Text.le (key a) (key b)).Pairwise fun a b => ¬ key b < key a := by
  refine (List.pairwise_mergeSort ?_ ?_ items).imp Text.le_iff.1
  · intro a b c hab hbc
    exact Text.le_iff.2 (List.not_lt.2
      (List.le_trans (List.not_lt.1 (Text.le_iff.1 hab)) (List.not_lt.1 (Text.le_iff.1 hbc))))
  · intro a b
    rw [Bool.or_eq_true, Text.le_iff, Text.le_iff]
    exact (List.le_total (key a) (key b)).imp List.not_lt.2 List.not_lt.2

/-- Entries of different keys are a keyed list once they are sorted by their keys. -/
theorem sorted_mergeSort {entries : List (Text × α)} (h : (entries.map Prod.fst).Nodup) :
    Sorted (entries.mergeSort fun a b => Text.le a.1 b.1) := by
  have hkeys : (entries.mergeSort fun a b => Text.le a.1 b.1).Pairwise fun a b => a.1 ≠ b.1 :=
    List.pairwise_map.1 (((List.mergeSort_perm entries _).map Prod.fst).nodup_iff.2 h)
  refine ((pairwise_mergeSort Prod.fst entries).and hkeys).imp ?_
  rintro a b ⟨hle, hne⟩
  exact lt_of_ne_of_not_lt hne.symm hle

/-- No key occurs twice in a keyed list. -/
theorem nodup_keys_of_sorted {m : Keyed α} (h : Sorted m) : (m.map Prod.fst).Nodup := by
  refine List.pairwise_map.2 (h.imp fun hlt heq => ?_)
  rw [heq] at hlt
  exact List.lt_irrefl _ hlt

/-- A keyed list is sorted already. -/
theorem mergeSort_of_sorted {m : Keyed α} (h : Sorted m) : (m.mergeSort fun a b => Text.le a.1 b.1) = m :=
  List.mergeSort_of_pairwise (h.imp fun hlt => Text.le_iff.2 (List.lt_asymm hlt))

/-! ## Insertions -/

/-- An entry after an insertion is the new one or an old one. -/
theorem mem_insert {key : Text} {value : α} {m : Keyed α} {entry : Text × α}
    (h : entry ∈ insert key value m) : entry = (key, value) ∨ entry ∈ m := by
  induction m with
  | nil => exact .inl (by simpa [insert] using h)
  | cons head rest ih =>
    obtain ⟨k, v⟩ := head
    by_cases hk : key = k
    · rw [insert, if_pos hk] at h
      rcases List.mem_cons.1 h with h | h
      · exact .inl h
      · exact .inr (List.mem_cons_of_mem _ h)
    · by_cases hlt : key < k
      · rw [insert, if_neg hk, if_pos hlt] at h
        exact List.mem_cons.1 h
      · rw [insert, if_neg hk, if_neg hlt] at h
        rcases List.mem_cons.1 h with rfl | h
        · exact .inr List.mem_cons_self
        · exact (ih h).imp_right (List.mem_cons_of_mem _)

/-- Inserting keeps the keys increasing. -/
theorem sorted_insert (key : Text) (value : α) {m : Keyed α} (h : Sorted m) :
    Sorted (insert key value m) := by
  induction m with
  | nil => simp [Sorted, insert]
  | cons head rest ih =>
    obtain ⟨k, v⟩ := head
    obtain ⟨hhead, hrest⟩ := List.pairwise_cons.1 h
    by_cases hk : key = k
    · subst hk
      rw [insert, if_pos rfl]
      exact List.pairwise_cons.2 ⟨hhead, hrest⟩
    · by_cases hlt : key < k
      · rw [insert, if_neg hk, if_pos hlt]
        refine List.pairwise_cons.2 ⟨?_, h⟩
        intro entry hentry
        rcases List.mem_cons.1 hentry with rfl | hentry
        · exact hlt
        · exact List.lt_trans hlt (hhead entry hentry)
      · rw [insert, if_neg hk, if_neg hlt]
        refine List.pairwise_cons.2 ⟨?_, ih hrest⟩
        intro entry hentry
        rcases mem_insert hentry with rfl | hentry
        · exact lt_of_ne_of_not_lt hk hlt
        · exact hhead entry hentry

/-- A key in front of all others does not occur among them. -/
theorem get?_eq_none_of_forall_lt {key : Text} {m : Keyed α} (h : ∀ entry ∈ m, key < entry.1) :
    get? key m = none := by
  induction m with
  | nil => rfl
  | cons head rest ih =>
    obtain ⟨k, v⟩ := head
    have hne : key ≠ k := by
      rintro rfl
      exact List.lt_irrefl key (h (key, v) List.mem_cons_self)
    rw [get?, if_neg hne]
    exact ih fun entry hentry => h entry (List.mem_cons_of_mem _ hentry)

/-- What is found under a key is an entry. -/
theorem mem_of_get?_eq_some {key : Text} {value : α} {m : Keyed α}
    (h : get? key m = some value) : (key, value) ∈ m := by
  induction m with
  | nil => simp at h
  | cons head rest ih =>
    obtain ⟨k, v⟩ := head
    by_cases hk : key = k
    · obtain rfl : v = value := by simpa [get?, hk] using h
      simp [hk]
    · exact List.mem_cons_of_mem _ (ih (by simpa [get?, hk] using h))

/-- Something is found under the keys that occur, and under no others. -/
theorem isSome_get?_iff {key : Text} {m : Keyed α} :
    (get? key m).isSome = true ↔ key ∈ m.map Prod.fst := by
  induction m with
  | nil => simp
  | cons head rest ih =>
    by_cases hk : key = head.1
    · simp [get?, hk]
    · simp [get?, hk, ih]

/-- Sorted lists in which the same is found under every key are the same. -/
theorem ext_of_sorted {m m' : Keyed α} (h : Sorted m) (h' : Sorted m')
    (hget : ∀ key, get? key m = get? key m') : m = m' := by
  induction m generalizing m' with
  | nil =>
    cases m' with
    | nil => rfl
    | cons head' rest' => simpa [get?] using hget head'.1
  | cons head rest ih =>
    cases m' with
    | nil => simpa [get?] using hget head.1
    | cons head' rest' =>
      obtain ⟨hhead, hrest⟩ := List.pairwise_cons.1 h
      obtain ⟨hhead', hrest'⟩ := List.pairwise_cons.1 h'
      -- A first key that is smaller than the other one is missing on the other side.
      have hnone : get? head.1 rest = none := get?_eq_none_of_forall_lt hhead
      have hnone' : get? head'.1 rest' = none := get?_eq_none_of_forall_lt hhead'
      have hkey : head.1 = head'.1 := by
        by_contra hne
        have hin : get? head.1 rest' = some head.2 := by
          simpa [get?, hne] using (hget head.1).symm
        have hin' : get? head'.1 rest = some head'.2 := by
          simpa [get?, Ne.symm hne] using hget head'.1
        have hlt : head'.1 < head.1 := hhead' _ (mem_of_get?_eq_some hin)
        have hlt' : head.1 < head'.1 := hhead _ (mem_of_get?_eq_some hin')
        exact List.lt_irrefl _ (List.lt_trans hlt hlt')
      have hvalue : head.2 = head'.2 := by simpa [get?, hkey] using hget head.1
      have htail : rest = rest' := by
        refine ih hrest hrest' fun key => ?_
        by_cases hk : key = head.1
        · rw [hk, hnone, hkey, hnone']
        · have hk' : key ≠ head'.1 := hkey ▸ hk
          simpa [get?, hk, hk'] using hget key
      rw [htail, Prod.ext hkey hvalue]

/-- Inserting entries one after the other keeps the keys increasing and adds no other entries. -/
theorem sorted_foldl_insert (entries : List (Text × α)) {m : Keyed α} (h : Sorted m) :
    Sorted (entries.foldl (fun m (k, v) => insert k v m) m) ∧
      ∀ entry ∈ entries.foldl (fun m (k, v) => insert k v m) m, entry ∈ m ∨ entry ∈ entries := by
  induction entries generalizing m with
  | nil => exact ⟨h, fun entry hentry => .inl hentry⟩
  | cons head rest ih =>
    obtain ⟨hsorted, hentries⟩ := ih (sorted_insert head.1 head.2 h)
    refine ⟨hsorted, fun entry hentry => ?_⟩
    rcases hentries entry hentry with hold | hrest
    · rcases mem_insert hold with rfl | hold
      · exact .inr List.mem_cons_self
      · exact .inl hold
    · exact .inr (List.mem_cons_of_mem _ hrest)

/-- A list built by insertions is sorted. -/
theorem sorted_ofList (entries : List (Text × α)) : Sorted (ofList entries) :=
  (sorted_foldl_insert entries .nil).1

/-- A list built by insertions holds nothing else. -/
theorem mem_of_mem_ofList {entries : List (Text × α)} {entry : Text × α}
    (h : entry ∈ ofList entries) : entry ∈ entries :=
  ((sorted_foldl_insert entries .nil).2 entry h).resolve_left (by simp)

/-! ## What insertions amount to -/

/-- Inserting changes what is under its key and nothing else. -/
theorem get?_insert (key other : Text) (value : α) (m : Keyed α) :
    get? other (insert key value m) = if other = key then some value else get? other m := by
  by_cases h : other = key
  · subst h
    simp
  · rw [if_neg h, get?_insert_of_ne h]

/-- Of the entries with one key the last one counts. -/
theorem get?_ofList_eq_some_iff {entries : List (Text × α)} {key : Text} {value : α} :
    get? key (ofList entries) = some value ↔
      ∃ before after, entries = before ++ (key, value) :: after ∧ ∀ entry ∈ after, entry.1 ≠ key := by
  induction entries using List.reverseRecOn with
  | nil => simp [ofList]
  | append_singleton entries last ih =>
    have hlast : ofList (entries ++ [last]) = insert last.1 last.2 (ofList entries) := by
      simp [ofList]
    rw [hlast, get?_insert]
    constructor
    · intro h
      by_cases hkey : key = last.1
      · obtain rfl : last.2 = value := by simpa [hkey] using h
        exact ⟨entries, [], by simp [hkey], by simp⟩
      · rw [if_neg hkey] at h
        obtain ⟨before, after, rfl, hafter⟩ := ih.1 h
        refine ⟨before, after ++ [last], by simp, ?_⟩
        intro entry hentry
        rcases List.mem_append.1 hentry with hentry | hentry
        · exact hafter entry hentry
        · obtain rfl : entry = last := by simpa using hentry
          exact fun heq => hkey heq.symm
    · rintro ⟨before, after, hentries, hafter⟩
      rcases List.eq_nil_or_concat after with rfl | ⟨front, x, rfl⟩
      · obtain ⟨-, hx⟩ := List.append_inj' hentries rfl
        obtain rfl : last = (key, value) := by simpa using hx
        simp
      · have hsplit : entries ++ [last] = (before ++ (key, value) :: front) ++ [x] := by
          simpa using hentries
        obtain ⟨rfl, hx⟩ := List.append_inj' hsplit rfl
        obtain rfl : last = x := by simpa using hx
        have hkey : key ≠ last.1 := fun heq => hafter last (by simp) heq.symm
        rw [if_neg hkey, ih]
        exact ⟨before, front, rfl, fun entry hentry => hafter entry (by simp [hentry])⟩

/-- A list built from entries of different keys holds all of them. -/
theorem mem_ofList_iff {entries : List (Text × α)} (h : (entries.map Prod.fst).Nodup) {entry : Text × α} :
    entry ∈ ofList entries ↔ entry ∈ entries := by
  refine ⟨mem_of_mem_ofList, fun hentry => ?_⟩
  obtain ⟨before, after, rfl⟩ := List.append_of_mem hentry
  apply mem_of_get?_eq_some
  rw [get?_ofList_eq_some_iff]
  refine ⟨before, after, rfl, ?_⟩
  rw [List.map_append, List.map_cons] at h
  have hhead := (List.nodup_cons.1 (List.nodup_append.1 h).2.1).1
  intro other hother heq
  exact hhead (heq ▸ List.mem_map_of_mem hother)

/-- Inserted entries, each key once, go before those that were there. -/
theorem get?_foldl_insert {new : Keyed α} (h : Sorted new) (old : Keyed α) (key : Text) :
    get? key (new.foldl (fun m (k, v) => insert k v m) old) = (get? key new).or (get? key old) := by
  induction new generalizing old with
  | nil => rfl
  | cons head rest ih =>
    obtain ⟨hhead, hrest⟩ := List.pairwise_cons.1 h
    rw [List.foldl_cons, ih hrest, get?_insert, get?]
    by_cases hkey : key = head.1
    · have hnone : get? key rest = none := get?_eq_none_of_forall_lt (hkey ▸ hhead)
      rw [hnone, if_pos hkey, if_pos hkey]
      rfl
    · rw [if_neg hkey, if_neg hkey]

/-- Sorted entries are what they are inserted to. -/
theorem ofList_of_sorted {m : Keyed α} (h : Sorted m) : ofList m = m := by
  refine ext_of_sorted (sorted_ofList m) h fun key => ?_
  rw [ofList, get?_foldl_insert h]
  exact Option.or_none

end Infill.Keyed
