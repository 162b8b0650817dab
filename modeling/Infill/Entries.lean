/-!
# Entries

A finite map as the list of its entries, each key once, in the order in which the keys were first put
in.  File trees and stores in memory are maps of this kind.  Main statements: what `lookup` finds after
`put` and after `keepKeys`, and that no key is ever there twice (`nodup_keys_put`).
-/

set_option autoImplicit false

namespace Infill

/-- Keys with their values. -/
abbrev Entries (κ α : Type) := List (κ × α)

namespace Entries

variable {κ α : Type} [DecidableEq κ]

/-- The first value under a key. -/
def lookup (key : κ) : Entries κ α → Option α
  | [] => none
  | (k, v) :: rest => if k = key then some v else lookup key rest

/-- The entries with `value` under `key`, in place of the value that was there. -/
def put (key : κ) (value : α) : Entries κ α → Entries κ α
  | [] => [(key, value)]
  | (k, v) :: rest => if k = key then (key, value) :: rest else (k, v) :: put key value rest

/-- The entries whose keys are kept. -/
def keepKeys (keep : κ → Bool) : Entries κ α → Entries κ α
  | [] => []
  | (k, v) :: rest => if keep k then (k, v) :: keepKeys keep rest else keepKeys keep rest

/-- Takes away what is under a key. -/
def erase (key : κ) (entries : Entries κ α) : Entries κ α := keepKeys (fun k => k != key) entries

/-- What was put under a key is found there. -/
@[simp] theorem lookup_put_self (key : κ) (value : α) (entries : Entries κ α) :
    lookup key (put key value entries) = some value := by
  induction entries with
  | nil => simp [put, lookup]
  | cons head rest ih =>
    obtain ⟨k, v⟩ := head
    by_cases h : k = key
    · simp [put, lookup, h]
    · simp [put, lookup, h, ih]

/-- Under other keys nothing changes when something is put. -/
theorem lookup_put_of_ne {key other : κ} (h : other ≠ key) (value : α) (entries : Entries κ α) :
    lookup other (put key value entries) = lookup other entries := by
  have hne : ¬ key = other := fun e => h e.symm
  induction entries with
  | nil => simp [put, lookup, hne]
  | cons head rest ih =>
    obtain ⟨k, v⟩ := head
    by_cases hk : k = key
    · subst hk
      simp [put, lookup, hne]
    · by_cases ho : k = other
      · subst ho
        simp [put, lookup, hk]
      · simp [put, lookup, hk, ho, ih]

/-- Keeping some keys changes nothing under them and leaves nothing under the others. -/
theorem lookup_keepKeys (keep : κ → Bool) (key : κ) (entries : Entries κ α) :
    lookup key (keepKeys keep entries) = if keep key then lookup key entries else none := by
  induction entries with
  | nil => simp [keepKeys, lookup]
  | cons head rest ih =>
    obtain ⟨k, v⟩ := head
    by_cases hk : k = key
    · subst hk
      by_cases hkeep : keep k
      · simp [keepKeys, lookup, hkeep]
      · simp [keepKeys, hkeep, ih]
    · by_cases hkeep : keep k
      · simp [keepKeys, lookup, hkeep, hk, ih]
      · simp [keepKeys, lookup, hkeep, hk, ih]

/-- Nothing is found under a key that was erased. -/
theorem lookup_erase_self (key : κ) (entries : Entries κ α) :
    lookup key (erase key entries) = none := by
  simp [erase, lookup_keepKeys]

/-- Under other keys nothing changes when something is erased. -/
theorem lookup_erase_of_ne {key other : κ} (h : other ≠ key) (entries : Entries κ α) :
    lookup other (erase key entries) = lookup other entries := by
  simp [erase, lookup_keepKeys, h]

/-- What is found is one of the entries. -/
theorem mem_of_lookup_eq_some {key : κ} {value : α} {entries : Entries κ α}
    (h : lookup key entries = some value) : (key, value) ∈ entries := by
  induction entries with
  | nil => cases h
  | cons head rest ih =>
    obtain ⟨k, v⟩ := head
    by_cases hk : k = key
    · subst hk
      obtain rfl : v = value := by simpa [lookup] using h
      exact List.mem_cons_self
    · rw [lookup, if_neg hk] at h
      exact List.mem_cons_of_mem _ (ih h)

/-! ## The keys -/

/-- Something is found under the keys of the entries and no others. -/
theorem isSome_lookup_iff {key : κ} {entries : Entries κ α} :
    (lookup key entries).isSome = true ↔ key ∈ entries.map Prod.fst := by
  induction entries with
  | nil => simp [lookup]
  | cons head rest ih =>
    obtain ⟨k, v⟩ := head
    by_cases hk : k = key
    · simp [lookup, hk]
    · have hne : ¬ key = k := fun e => hk e.symm
      simp [lookup, hk, hne, ih]

/-- Where no key is there twice, each entry is what stands under its key. -/
theorem lookup_eq_some_iff {key : κ} {value : α} {entries : Entries κ α} (h : (entries.map Prod.fst).Nodup) :
    lookup key entries = some value ↔ (key, value) ∈ entries := by
  refine ⟨mem_of_lookup_eq_some, fun hmem => ?_⟩
  induction entries with
  | nil => cases hmem
  | cons head rest ih =>
    obtain ⟨hhead, hrest⟩ := List.nodup_cons.1 h
    rcases List.mem_cons.1 hmem with rfl | hmem
    · simp [lookup]
    · have hne : head.1 ≠ key := fun heq => hhead (heq ▸ List.mem_map.2 ⟨_, hmem, rfl⟩)
      rw [lookup, if_neg hne]
      exact ih hrest hmem

/-- Putting something adds its key and no other. -/
theorem mem_keys_put {key other : κ} {value : α} {entries : Entries κ α} :
    other ∈ (put key value entries).map Prod.fst ↔ other = key ∨ other ∈ entries.map Prod.fst := by
  rw [← isSome_lookup_iff, ← isSome_lookup_iff]
  by_cases h : other = key
  · simp [h]
  · simp [h, lookup_put_of_ne h]

/-- Putting an entry in repeats no key. -/
theorem nodup_keys_put (key : κ) (value : α) {entries : Entries κ α}
    (h : (entries.map Prod.fst).Nodup) : ((put key value entries).map Prod.fst).Nodup := by
  induction entries with
  | nil => simp [put]
  | cons head rest ih =>
    obtain ⟨k, v⟩ := head
    obtain ⟨hhead, hrest⟩ := List.nodup_cons.1 h
    by_cases hk : k = key
    · subst hk
      rw [put, if_pos rfl]
      exact List.nodup_cons.2 ⟨hhead, hrest⟩
    · rw [put, if_neg hk]
      refine List.nodup_cons.2 ⟨fun hmem => ?_, ih hrest⟩
      rcases mem_keys_put.1 hmem with heq | hmem
      · exact hk heq
      · exact hhead hmem

omit [DecidableEq κ] in
/-- What is kept of some entries stands there in the same order. -/
theorem sublist_keepKeys (keep : κ → Bool) (entries : Entries κ α) :
    List.Sublist (keepKeys keep entries) entries := by
  induction entries with
  | nil => exact .slnil
  | cons head rest ih =>
    obtain ⟨k, v⟩ := head
    by_cases hk : keep k
    · rw [keepKeys, if_pos hk]
      exact ih.cons_cons _
    · rw [keepKeys, if_neg hk]
      exact ih.cons _

omit [DecidableEq κ] in
/-- Keeping some keys is keeping the entries that have them. -/
theorem keepKeys_eq_filter (keep : κ → Bool) (entries : Entries κ α) :
    keepKeys keep entries = entries.filter fun entry => keep entry.1 := by
  induction entries with
  | nil => rfl
  | cons head rest ih => rw [keepKeys, List.filter_cons, ih]

/-- Erasing leaves the other entries in their order. -/
theorem sublist_erase (key : κ) (entries : Entries κ α) : List.Sublist (erase key entries) entries :=
  sublist_keepKeys _ entries

end Entries
end Infill
