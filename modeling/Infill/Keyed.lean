import Infill.Text.Basic

/-!
# Keyed lists

A finite map from text to values, as the list of its entries in increasing order of keys.  JSON
objects and variables are keyed lists.  Main statement: what `get?` finds after `insert`.
-/

set_option autoImplicit false

namespace Infill

/-- Entries of a map, in increasing order of their keys. -/
abbrev Keyed (α : Type) := List (Text × α)

namespace Keyed

variable {α : Type}

/-- The value under a key. -/
def get? (key : Text) : Keyed α → Option α
  | [] => none
  | (k, v) :: rest => if key = k then some v else get? key rest

/-- The map with `value` under `key`, in place of any value that was there. -/
def insert (key : Text) (value : α) : Keyed α → Keyed α
  | [] => [(key, value)]
  | (k, v) :: rest =>
    if key = k then (key, value) :: rest
    else if key < k then (key, value) :: (k, v) :: rest
    else (k, v) :: insert key value rest

/-- The map that holds the given entries, the last one of each key. -/
def ofList (entries : List (Text × α)) : Keyed α :=
  entries.foldl (fun m (k, v) => insert k v m) []

/-- The keys increase, so that each occurs once. -/
def Sorted (m : Keyed α) : Prop := m.Pairwise fun a b => a.1 < b.1

/-- Where there are no keys, nothing is found. -/
@[simp] theorem get?_nil (key : Text) : get? key ([] : Keyed α) = none := rfl

/-- What was inserted under a key is found there. -/
@[simp] theorem get?_insert_self (key : Text) (value : α) (m : Keyed α) :
    get? key (insert key value m) = some value := by
  induction m with
  | nil => simp [insert, get?]
  | cons entry rest ih =>
    obtain ⟨k, v⟩ := entry
    by_cases h : key = k
    · simp [insert, get?, h]
    · by_cases hlt : key < k
      · simp [insert, get?, h, hlt]
      · simp [insert, get?, h, hlt, ih]

/-- Under other keys nothing changes when something is inserted. -/
theorem get?_insert_of_ne {key other : Text} (h : other ≠ key) (value : α) (m : Keyed α) :
    get? other (insert key value m) = get? other m := by
  induction m with
  | nil => simp [insert, get?, h]
  | cons entry rest ih =>
    obtain ⟨k, v⟩ := entry
    by_cases hk : key = k
    · subst hk
      simp [insert, get?, h]
    · by_cases hlt : key < k
      · simp [insert, get?, hk, hlt, h]
      · simp [insert, get?, hk, hlt, ih]

end Keyed
end Infill
