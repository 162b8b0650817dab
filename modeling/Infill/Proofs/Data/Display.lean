import Infill.Data.Display
import Infill.Proofs.Text.Parts

/-!
# Nested arrays as text

The text of nested arrays is that of their atoms, from left to right and with commas between them
(`display_eq_joinWith_atoms`).  An atom is what is no array; an empty array has one as well, without a text,
so that it still has its place between commas.  Hence brackets do not show in a text: an array that is not
empty may be replaced by its items (`display_flattens`).
-/

set_option autoImplicit false

namespace Infill.Data

/-- What nested arrays are made of: the values that are no arrays, and the places of empty arrays. -/
inductive Atom where
  | emptyArray
  | null
  | bool (b : Bool)
  | number (n : Number)
  | string (s : Text)
  | object (members : Keyed Json)

/-- The text of an atom. -/
def Atom.text : Atom → Text
  | emptyArray => []
  | null => []
  | bool b => Json.boolText b
  | number n => numberText n
  | string s => s
  | object _ => objectText

mutual

/-- The atoms of a value, from left to right. -/
def atoms : Json → List Atom
  | .null => [.null]
  | .bool b => [.bool b]
  | .number n => [.number n]
  | .string s => [.string s]
  | .object members => [.object members]
  | .array [] => [.emptyArray]
  | .array (item :: items) => atoms item ++ atomsOfItems items

/-- The atoms of some values, one value after the other. -/
def atomsOfItems : List Json → List Atom
  | [] => []
  | item :: items => atoms item ++ atomsOfItems items

end

/-- The atoms of items are those of one item after the other. -/
theorem atomsOfItems_eq_flatMap (items : List Json) : atomsOfItems items = items.flatMap atoms := by
  induction items with
  | nil => rfl
  | cons item items ih => rw [atomsOfItems, ih, List.flatMap_cons]

/-- Each item is shown by itself. -/
theorem displayItems_eq_map (items : List Json) : displayItems items = items.map display := by
  induction items with
  | nil => rfl
  | cons item items ih => rw [displayItems, ih, List.map_cons]

/-- The atoms of an array with items are those of the items. -/
theorem atoms_array {items : List Json} (h : items ≠ []) : atoms (.array items) = items.flatMap atoms := by
  obtain ⟨item, items, rfl⟩ := List.exists_cons_of_ne_nil h
  rw [atoms, atomsOfItems_eq_flatMap, List.flatMap_cons]

/-- An array is shown as its items with commas between them. -/
theorem display_array (items : List Json) :
    display (.array items) = Text.joinWith [','] (items.map display) := by
  rw [display, displayItems_eq_map]

/-- Every value has an atom. -/
theorem atoms_ne_nil (v : Json) : atoms v ≠ [] := by
  match v with
  | .null | .bool _ | .number _ | .string _ | .object _ | .array [] => simp [atoms]
  | .array (item :: items) => exact fun h => atoms_ne_nil item (List.append_eq_nil_iff.1 h).1

/-- The text of a value is that of its atoms, with commas between them. -/
theorem display_eq_joinWith_atoms (v : Json) : display v = Text.joinWith [','] ((atoms v).map Atom.text) := by
  match v with
  | .null | .bool _ | .number _ | .string _ | .object _ | .array [] =>
    simp [display, displayItems, atoms, Atom.text, Text.joinWith]
  | .array (item :: items) =>
    have hitems : ∀ v ∈ item :: items, display v = Text.joinWith [','] ((atoms v).map Atom.text) :=
      fun v _ => display_eq_joinWith_atoms v
    have hgroups : ∀ group ∈ (item :: items).map fun v => (atoms v).map Atom.text, group ≠ [] := by
      intro group hgroup
      obtain ⟨v, -, rfl⟩ := List.mem_map.1 hgroup
      simp [atoms_ne_nil v]
    calc display (.array (item :: items))
        = Text.joinWith [','] ((item :: items).map display) := display_array _
      _ = Text.joinWith [',']
            (((item :: items).map fun v => (atoms v).map Atom.text).map (Text.joinWith [','])) := by
          rw [List.map_congr_left hitems, List.map_map]
          rfl
      _ = Text.joinWith [','] ((item :: items).map fun v => (atoms v).map Atom.text).flatten :=
          Text.joinWith_map_joinWith ',' hgroups
      _ = Text.joinWith [','] ((atoms (.array (item :: items))).map Atom.text) := by
          rw [atoms_array (List.cons_ne_nil item items), List.map_flatMap, List.flatMap_def]

/-- The text of a value is that of its atoms, from left to right and with commas between them, however deep
the arrays are nested.  An array that is not empty reads as its items do in its place. -/
theorem display_flattens :
    (∀ v, display v = Text.joinWith [','] ((atoms v).map Atom.text)) ∧
      ∀ before inner after : List Json, inner ≠ [] →
        display (.array (before ++ [.array inner] ++ after)) = display (.array (before ++ inner ++ after)) := by
  refine ⟨display_eq_joinWith_atoms, fun before inner after hinner => ?_⟩
  have hwhole : before ++ [.array inner] ++ after ≠ [] := by simp
  have hparts : before ++ inner ++ after ≠ [] := by simp [hinner]
  rw [display_eq_joinWith_atoms, display_eq_joinWith_atoms, atoms_array hwhole, atoms_array hparts]
  simp only [List.flatMap_append, List.flatMap_singleton, atoms_array hinner]

/-- Of `[true,[null,[]],""]` the inner array has two places without a text, the empty array and the null. -/
theorem display_flattens_empty :
    let inner : List Json := [.null, .array []]
    display (.array [.bool true, .array inner, .string []]) = ['t', 'r', 'u', 'e', ',', ',', ','] ∧
      display (.array [.bool true, .array inner, .string []]) =
        display (.array [.bool true, .null, .array [], .string []]) := by
  intro inner
  have hinner : inner ≠ [] := List.cons_ne_nil _ _
  refine ⟨?_, display_flattens.2 [.bool true] inner [.string []] hinner⟩
  rw [display_flattens.1]
  rfl

end Infill.Data
