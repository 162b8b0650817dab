import Infill.Proofs.Data.Precedence

/-!
# Leaves

A leaf of a value is what stands at the end of some keys and is no object.  A value that is filled, in which
no object is empty, has a leaf (`exists_leaf`), and so it is known by its leaves (`SameLeaves.eq`).  The same
goes for two objects in which everything under a key is filled (`SameLeaves.eq_of_isObject`).
-/

set_option autoImplicit false

namespace Infill.Data

/-- Some keys lead to a leaf. -/
def LeafAt (start : Option Json) (path : List Text) (leaf : Json) : Prop := Leads start path leaf ∧ ¬ leaf.IsObject

/-- No object is empty. -/
def Filled (start : Option Json) : Prop := ∀ path, ¬ Leads start path .empty

/-- Two values have the same leaves in the same places. -/
def SameLeaves (a b : Option Json) : Prop := ∀ path leaf, LeafAt a path leaf ↔ LeafAt b path leaf

variable {a b : Option Json} {path rest : List Text} {v w : Json}

/-! ## Keys that lead on -/

/-- Keys that lead on behind others lead on from where those lead. -/
theorem leads_append_iff : Leads a (path ++ rest) w ↔ ∃ v, Leads a path v ∧ Leads (some v) rest w := by
  induction path generalizing a with
  | nil =>
    simp only [List.nil_append, leads_nil_iff]
    constructor
    · intro h
      cases h with
      | here => exact ⟨w, rfl, .here w⟩
      | @member members _ _ _ h => exact ⟨.object members, rfl, .member h⟩
    · rintro ⟨v, rfl, h⟩
      exact h
  | cons key path ih =>
    rw [List.cons_append, leads_cons_iff, ih]
    simp only [leads_cons_iff]

/-- Keys lead on only from objects, and not from one without members. -/
theorem Leads.exists_object (h : Leads a (path ++ rest) w) (hrest : rest ≠ []) :
    ∃ members, members ≠ [] ∧ Leads a path (.object members) := by
  obtain ⟨v, hv, hlead⟩ := leads_append_iff.1 h
  cases hlead with
  | here => exact absurd rfl hrest
  | @member members key _ _ hmember =>
    refine ⟨members, ?_, hv⟩
    rintro rfl
    cases hmember

/-- Keys do not lead on from what is no object. -/
theorem Leads.not_leads_append (h : Leads a path v) (hv : ¬ v.IsObject) (hrest : rest ≠ []) :
    ¬ Leads a (path ++ rest) w := by
  intro hlong
  obtain ⟨members, -, hmembers⟩ := hlong.exists_object hrest
  exact hv (h.unique hmembers ▸ Json.isObject_object members)

/-! ## Leaves of members -/

/-- A leaf below a key is a leaf of the member. -/
theorem leafAt_cons_iff {key : Text} : LeafAt a (key :: path) v ↔ LeafAt (member? key a) path v := by
  rw [LeafAt, LeafAt, leads_cons_iff]

/-- Nothing has no leaf. -/
theorem not_leafAt_none : ¬ LeafAt none path v := by
  rintro ⟨h, -⟩
  cases h

/-- The members of what is filled are filled. -/
theorem Filled.member? (h : Filled a) (key : Text) : Filled (member? key a) :=
  fun path hleads => h (key :: path) (leads_cons_iff.2 hleads)

namespace SameLeaves

/-- The leaves are the same in either order. -/
theorem symm (h : SameLeaves a b) : SameLeaves b a := fun path leaf => (h path leaf).symm

/-- Members under one key have the same leaves. -/
theorem member? (h : SameLeaves a b) (key : Text) : SameLeaves (member? key a) (member? key b) := by
  intro path leaf
  rw [← leafAt_cons_iff, ← leafAt_cons_iff]
  exact h (key :: path) leaf

/-- What is a leaf itself is all there is. -/
theorem eq_some_of_not_isObject (h : SameLeaves (some v) b) (hv : ¬ v.IsObject) : b = some v := by
  have hleaf : LeafAt b [] v := (h [] v).1 ⟨.here v, hv⟩
  exact leads_nil_iff.1 hleaf.1

/-- With the leaves of an object goes an object. -/
theorem isObject (h : SameLeaves (some v) (some w)) (hv : v.IsObject) : w.IsObject := by
  by_contra hw
  have heq : some v = some w := h.symm.eq_some_of_not_isObject hw
  exact hw (Option.some.inj heq ▸ hv)

end SameLeaves

/-! ## Values with the same leaves -/

/-- A value in which no object is empty has a leaf. -/
theorem exists_leaf (hv : v.Ordered) (hfilled : Filled (some v)) : ∃ path leaf, LeafAt (some v) path leaf := by
  induction hv with
  | null | bool | number | string | array => exact ⟨[], _, .here _, by rintro ⟨_, h⟩; cases h⟩
  | @object members hsorted hmembers ih =>
    cases members with
    | nil => exact absurd (.here _) (hfilled [])
    | cons head others =>
      have hget : Keyed.get? head.1 (head :: others) = some head.2 := by simp [Keyed.get?]
      have hhead : Filled (some head.2) := by
        have hmember := hfilled.member? head.1
        rwa [member?_object, hget] at hmember
      obtain ⟨path, leaf, hleaf⟩ := ih head List.mem_cons_self hhead
      refine ⟨head.1 :: path, leaf, leafAt_cons_iff.2 ?_⟩
      rwa [member?_object, hget]

namespace SameLeaves

/-- What has no leaves, like nothing, is nothing. -/
theorem eq_none (h : SameLeaves none b) (hb : ∀ v ∈ b, v.Ordered) (hfilled : Filled b) : b = none := by
  cases b with
  | none => rfl
  | some v =>
    obtain ⟨path, leaf, hleaf⟩ := exists_leaf (hb v rfl) hfilled
    exact absurd ((h path leaf).2 hleaf) not_leafAt_none

/-- Values in which no object is empty are the same if they have the same leaves. -/
theorem eq (h : SameLeaves a b) (ha : ∀ v ∈ a, v.Ordered) (hb : ∀ v ∈ b, v.Ordered) (hfilled : Filled a)
    (hfilled' : Filled b) : a = b := by
  cases a with
  | none => exact (h.eq_none hb hfilled').symm
  | some v =>
    -- The induction is on the first value; each member is compared with the one under its key.
    induction ha v rfl generalizing b with
    | null | bool | number | string | array =>
      exact (h.eq_some_of_not_isObject (by rintro ⟨_, h⟩; cases h)).symm
    | @object members hsorted hmembers ih =>
      cases b with
      | none => exact h.symm.eq_none ha hfilled
      | some w =>
        have hv : (Json.object members).IsObject := Json.isObject_object members
        apply congrArg some
        apply eq_of_member?_eq (ha _ rfl) (hb w rfl) hv (h.isObject hv)
        intro key
        have hkey := h.member? key
        have hfilledKey := hfilled.member? key
        rw [member?_object] at hkey hfilledKey ⊢
        cases hchild : Keyed.get? key members with
        | none => exact ((hchild ▸ hkey).eq_none (ordered_member? hb key) (hfilled'.member? key)).symm
        | some child =>
          rw [hchild] at hkey hfilledKey
          have hmem : (key, child) ∈ members := Keyed.mem_of_get?_eq_some hchild
          have hordered : ∀ value ∈ some child, value.Ordered := by simpa using hmembers (key, child) hmem
          exact ih (key, child) hmem (ordered_member? hb key) (hfilled'.member? key) hkey hordered hfilledKey

/-- Objects in which nothing under a key is an empty object are the same if they have the same leaves. -/
theorem eq_of_isObject (h : SameLeaves (some v) (some w)) (hv : v.IsObject) (hordered : v.Ordered)
    (hordered' : w.Ordered) (hfilled : ∀ path, Leads (some v) path .empty → path = [])
    (hfilled' : ∀ path, Leads (some w) path .empty → path = []) : v = w := by
  apply eq_of_member?_eq hordered hordered' hv (h.isObject hv)
  intro key
  apply (h.member? key).eq
  · exact ordered_member? (by simpa using hordered) key
  · exact ordered_member? (by simpa using hordered') key
  · intro path hleads
    cases hfilled (key :: path) (leads_cons_iff.2 hleads)
  · intro path hleads
    cases hfilled' (key :: path) (leads_cons_iff.2 hleads)

end SameLeaves

end Infill.Data
