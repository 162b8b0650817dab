import Infill.Proofs.Json.Doubles
import Infill.Proofs.Json.Ranged
import Infill.Proofs.Json.RoundTrip

/-!
# Written values with doubles

A value with doubles is not always read as it was written, since the reader rounds more than once.  But each of its
numbers is read as a number, and as the same one wherever it stands, so that the value is read as one and the same
value at every level of indentation (`readsAs_reread`).
-/

set_option autoImplicit false

namespace Infill.Json

/-- The values whose arrays and objects are nested at most `depth` deep. -/
inductive NestedWithin : Nat → Json → Prop where
  | null (depth : Nat) : NestedWithin depth .null
  | bool (depth : Nat) (b : Bool) : NestedWithin depth (.bool b)
  | number (depth : Nat) (n : Number) : NestedWithin depth (.number n)
  | string (depth : Nat) (s : Text) : NestedWithin depth (.string s)
  | array {depth : Nat} {items : List Json} (h : ∀ item ∈ items, NestedWithin depth item) :
      NestedWithin (depth + 1) (.array items)
  | object {depth : Nat} {members : Keyed Json} (h : ∀ member ∈ members, NestedWithin depth member.2) :
      NestedWithin (depth + 1) (.object members)

/-- What is nested within a bound is nested within every greater one. -/
theorem NestedWithin.succ {depth : Nat} {v : Json} (h : NestedWithin depth v) : NestedWithin (depth + 1) v := by
  induction h with
  | null depth => exact .null _
  | bool depth b => exact .bool _ b
  | number depth n => exact .number _ n
  | string depth s => exact .string _ s
  | array _ ih => exact .array ih
  | object _ ih => exact .object ih

/-! ## What a value is read as -/

/-- The number that a written number is read as. -/
def rereadNumber (n : Number) : Number :=
  match readNumber (Utf8.encode (numberText n)) with
  | .ok (m, _) => m
  | .error _ => n

mutual

/-- A value with its numbers read again. -/
def reread : Json → Json
  | .null => .null
  | .bool b => .bool b
  | .number n => .number (rereadNumber n)
  | .string s => .string s
  | .array items => .array (rereadItems items)
  | .object members => .object (rereadMembers members)

/-- Items, as they are read after they were written. -/
def rereadItems : List Json → List Json
  | [] => []
  | item :: items => reread item :: rereadItems items

/-- Members, as they are read after they were written. -/
def rereadMembers : List (Text × Json) → List (Text × Json)
  | [] => []
  | (key, value) :: members => (key, reread value) :: rereadMembers members

end

/-- Each item is read by itself. -/
theorem rereadItems_eq_map (items : List Json) : rereadItems items = items.map reread := by
  induction items with
  | nil => rfl
  | cons item items ih => rw [rereadItems, ih, List.map_cons]

/-- Each member is read by itself, under its own key. -/
theorem rereadMembers_eq_map (members : List (Text × Json)) :
    rereadMembers members = members.map fun member => (member.1, reread member.2) := by
  induction members with
  | nil => rfl
  | cons member members ih => rw [rereadMembers, ih, List.map_cons]

/-! ## Reading -/

/-- A number begins with a hyphen or a digit. -/
theorem exists_cons_numberText {n : Number} (h : n.InRange) :
    ∃ b tail, Utf8.encode (numberText n) = b :: tail ∧ (b = '-'.toUInt8 ∨ isDigit b = true) := by
  cases n with
  | integer n => exact exists_cons_ofInt n
  | double x => exact exists_cons_doubleText h

/-- A written number is read as one and the same number, whatever may follow it. -/
theorem readNumber_numberText {n : Number} (h : n.InRange) {rest : Bytes} (hrest : EndsValue rest) :
    readNumber (Utf8.encode (numberText n) ++ rest) = .ok (rereadNumber n, rest) := by
  obtain ⟨m, hread⟩ : ∃ m, ∀ rest, EndsValue rest →
      readNumber (Utf8.encode (numberText n) ++ rest) = .ok (m, rest) := by
    cases n with
    | integer n => exact ⟨.integer n, fun rest hrest => readNumber_ofInt h hrest⟩
    | double x => exact readNumber_doubleText h
  have halone := hread [] endsValue_nil
  rw [List.append_nil] at halone
  have hnumber : rereadNumber n = m := by
    rw [rereadNumber, halone]
  rw [hnumber]
  exact hread rest hrest

/-- A written value is read as the value with its numbers read again. -/
theorem readsAs_reread {depth : Nat} {v : Json} (h : NestedWithin depth v) (hordered : v.Ordered)
    (hranged : v.Ranged) : ReadsAs depth v v.reread := by
  induction h with
  | null depth => exact readsAs_null depth
  | bool depth b => exact readsAs_bool depth b
  | number depth n =>
    cases hranged with
    | number hrange =>
      exact readsAs_number depth (exists_cons_numberText hrange) fun _ hrest =>
        readNumber_numberText hrange hrest
  | string depth s => exact readsAs_string depth s
  | array _ ih =>
    cases hordered with
    | array hitems =>
      cases hranged with
      | array hnumbers =>
        rw [reread, rereadItems_eq_map]
        exact readsAs_array reread fun item hitem => ih item hitem (hitems item hitem) (hnumbers item hitem)
  | @object _ members _ ih =>
    cases hordered with
    | object hsorted hmembers =>
      cases hranged with
      | object hnumbers =>
        have hkeys : Keyed.Sorted (members.map fun member => (member.1, reread member.2)) :=
          List.pairwise_map.2 hsorted
        rw [reread, rereadMembers_eq_map, ← Keyed.ofList_of_sorted hkeys]
        exact readsAs_object reread fun member hmember =>
          ih member hmember (hmembers member hmember) (hnumbers member hmember)

end Infill.Json
