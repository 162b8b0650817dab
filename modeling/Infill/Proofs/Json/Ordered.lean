import Infill.Json.Reader
import Infill.Proofs.Keyed
import Infill.Proofs.Result
import Infill.Store.Documents

/-!
# Ordered values

A JSON value is ordered if the members of every object in it stand in increasing order of their keys,
so that no object holds a key twice.  Only ordered values stand for data: every value that is read is
one (`ordered_of_read`), and so is what a document of data holds (`ordered_of_readJson`).
-/

set_option autoImplicit false

namespace Infill.Json

/-- The members of every object in a value are sorted by their keys. -/
inductive Ordered : Json → Prop where
  | null : Ordered .null
  | bool (b : Bool) : Ordered (.bool b)
  | number (n : Number) : Ordered (.number n)
  | string (s : Text) : Ordered (.string s)
  | array {items : List Json} (h : ∀ item ∈ items, Ordered item) : Ordered (.array items)
  | object {members : Keyed Json} (hsorted : members.Sorted)
      (h : ∀ member ∈ members, Ordered member.2) : Ordered (.object members)

/-- The object without members is ordered. -/
theorem ordered_empty : Ordered .empty := .object .nil (by simp)

/-- One member makes an ordered object. -/
theorem ordered_singleton (key : Text) {value : Json} (h : value.Ordered) :
    Ordered (.object [(key, value)]) :=
  .object (List.pairwise_singleton _ _) (by simpa using h)

/-- An ordered object has sorted members. -/
theorem Ordered.sorted {members : Keyed Json} (h : Ordered (.object members)) :
    members.Sorted := by
  cases h with
  | object hsorted _ => exact hsorted

/-- What an ordered object holds under a key is ordered. -/
theorem Ordered.get? {members : Keyed Json} (h : Ordered (.object members)) {key : Text}
    {value : Json} (hget : Keyed.get? key members = some value) : Ordered value := by
  cases h with
  | object _ hmembers => exact hmembers _ (Keyed.mem_of_get?_eq_some hget)

/-- A member put into an ordered object leaves it ordered. -/
theorem Ordered.insert {members : Keyed Json} (h : Ordered (.object members)) (key : Text)
    {value : Json} (hvalue : value.Ordered) : Ordered (.object (Keyed.insert key value members)) := by
  cases h with
  | object hsorted hmembers =>
    refine .object (Keyed.sorted_insert key value hsorted) ?_
    intro member hmember
    rcases Keyed.mem_insert hmember with rfl | hmember
    · exact hvalue
    · exact hmembers member hmember

/-! ## What is read is ordered -/

open Result (Gives)

/-- Everything that a reader takes off its input has a property. -/
def Reader.Yields {α : Type} (reader : Reader α) (P : α → Prop) : Prop :=
  ∀ input, Gives (fun r => P r.1) (reader input)

/-- A reader that takes one thing and then more of them yields only what the two yield. -/
theorem Reader.Yields.cons {α : Type} {P : α → Prop} {head : Reader α} {tail : Reader (List α)}
    (hhead : head.Yields P) (htail : tail.Yields fun vs => ∀ v ∈ vs, P v) :
    Reader.Yields (fun input => do
      let (v, rest) ← head input
      let (vs, rest) ← tail rest
      .ok (v :: vs, rest)) fun vs => ∀ v ∈ vs, P v := by
  intro input
  refine .bind fun v hv => .bind fun vs hvs => .ok ?_
  intro w hw
  rcases List.mem_cons.1 hw with rfl | hw
  · exact hhead _ _ hv
  · exact htail _ _ hvs w hw

/-- The items of an array have the property that each item read has. -/
theorem readItems_yields {item : Reader Json} {P : Json → Prop} (hitem : item.Yields P)
    (rounds : Nat) (first : Bool) : (readItems item rounds first).Yields fun vs => ∀ v ∈ vs, P v := by
  induction rounds generalizing first with
  | zero => exact fun input => .error _
  | succ rounds ih =>
    intro input
    have hcons := hitem.cons (ih false)
    rw [readItems]
    split
    · exact .error _
    · refine .ite (.ok (by simp)) (.ite (hcons _) (.ite ?_ (.error _)))
      split
      · exact .error _
      · exact .ite (.error _) (hcons _)

/-- A member has the property that each value read has. -/
theorem readMember_yields {item : Reader Json} {P : Json → Prop} (hitem : item.Yields P) :
    (readMember item).Yields fun m => P m.2 := by
  intro input
  refine .bind fun key _ => ?_
  dsimp only
  split
  · exact .error _
  · exact .ite (.bind fun v hv => .ok (hitem _ _ hv)) (.error _)

/-- The members of an object have the property that each value read has. -/
theorem readMembers_yields {item : Reader Json} {P : Json → Prop} (hitem : item.Yields P)
    (rounds : Nat) (first : Bool) :
    (readMembers item rounds first).Yields fun ms => ∀ m ∈ ms, P m.2 := by
  induction rounds generalizing first with
  | zero => exact fun input => .error _
  | succ rounds ih =>
    intro input
    have hcons := (readMember_yields hitem).cons (ih false)
    rw [readMembers]
    split
    · exact .error _
    · refine .ite (.ok (by simp)) (.ite (.ite (hcons _) (.error _)) (.ite ?_ (.error _)))
      split
      · exact .error _
      · exact .ite (hcons _) (.ite (.error _) (.error _))

/-- A property that a value has if the values inside it have it. -/
structure Hereditary (P : Json → Prop) : Prop where
  null : P .null
  bool (b : Bool) : P (.bool b)
  string (s : Text) : P (.string s)
  array {items : List Json} (h : ∀ item ∈ items, P item) : P (.array items)
  object {members : Keyed Json} (hsorted : members.Sorted) (h : ∀ member ∈ members, P member.2) :
    P (.object members)

section Hereditary

variable {P : Json → Prop} (hP : Hereditary P) (hnumber : readNumber.Yields fun n => P (.number n))
include hP hnumber

/-- A value has a property if the values inside it have it, and numbers do. -/
theorem readValueWith_yields {nested : Option (Reader Json)} (hnested : ∀ item ∈ nested, item.Yields P) :
    (readValueWith nested).Yields P := by
  intro input
  rw [readValueWith]
  split
  · exact .error _
  · -- What does not begin an array or an object has no values inside it.
    refine .ite (.bind fun _ _ => .ok hP.null) ?_
    refine .ite (.bind fun _ _ => .ok (hP.bool true)) ?_
    refine .ite (.bind fun _ _ => .ok (hP.bool false)) ?_
    refine .ite (.bind fun number hread => .ok (hnumber _ _ hread)) ?_
    refine .ite (.bind fun string _ => .ok (hP.string string.1)) ?_
    refine .ite ?_ (.ite ?_ (.error _))
    · split
      · exact .error _
      · rename_i item
        refine .bind fun items hitems => .ok (hP.array ?_)
        exact readItems_yields (hnested item rfl) _ _ _ _ hitems
    · split
      · exact .error _
      · rename_i item
        refine .bind fun members hmembers => .ok ?_
        have hall := readMembers_yields (hnested item rfl) _ _ _ _ hmembers
        exact hP.object (Keyed.sorted_ofList members.1) fun member hmember =>
          hall member (Keyed.mem_of_mem_ofList hmember)

/-- Every value that is read has the property, however deep it may be nested. -/
theorem readValue_yields (depth : Nat) : (readValue depth).Yields P := by
  induction depth with
  | zero => exact readValueWith_yields hP hnumber (by simp)
  | succ depth ih => exact readValueWith_yields hP hnumber (by simpa using ih)

/-- What is read has a property that its parts hand on. -/
theorem hereditary_of_read {input : Bytes} {value : Json} (h : read input = .ok value) : P value := by
  have hdocument : readDocument input = .ok value := Result.mapError_eq_ok.1 h
  obtain ⟨⟨v, rest⟩, hv, h⟩ := Result.bind_eq_ok.1 hdocument
  dsimp only at h
  split at h
  · obtain rfl : v = value := by simpa using h
    exact readValue_yields hP hnumber maxDepth _ _ hv
  · simp at h

end Hereditary

/-- Order is handed on from the parts. -/
theorem hereditary_ordered : Hereditary Ordered :=
  ⟨.null, .bool, .string, .array, .object⟩

/-- The value of a JSON document is ordered. -/
theorem ordered_of_read {input : Bytes} {value : Json} (h : read input = .ok value) :
    value.Ordered :=
  hereditary_of_read hereditary_ordered (fun _ n _ => .number n.1) h

/-- What a document of data holds is ordered. -/
theorem ordered_of_readJson {documents : Documents} {path : Path} {value : Json}
    (h : (documents.readJson path).result = .ok value) : value.Ordered := by
  rw [Documents.readJson, Traced.result_bind, Traced.result_ofExcept] at h
  obtain ⟨content, -, h⟩ := Result.bind_eq_ok.1 h
  rw [Documents.dataOf] at h
  split at h
  · obtain rfl : .empty = value := by simpa using h
    exact ordered_empty
  · split at h
    · obtain rfl : .empty = value := by simpa using h
      exact ordered_empty
    · rename_i v _ hread
      obtain rfl : v = value := by simpa using h
      exact ordered_of_read hread
    · obtain rfl : .empty = value := by simpa [Except.bind] using h
      exact ordered_empty

end Infill.Json
