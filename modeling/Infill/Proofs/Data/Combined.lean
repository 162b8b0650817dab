import Mathlib.Data.List.DropRight
import Infill.Proofs.Data.Overlay

/-!
# All layers at once

A merge goes through its layers one after the other.  Here it is said of all of them at once what they
amount to, key by key: of the values that the layers give to a key the last one stands, and if that is an
object, it is merged with the objects that stand in an unbroken row before it (`get?_merge`).  Whatever
comes before that row is forgotten, objects included.

The rule speaks of a merge again, of fewer and smaller values.  Followed down to every depth it is a relation
between layers and a value (`AmountsTo`), which holds of the merge and of nothing else.
-/

set_option autoImplicit false

namespace Infill.Data

/-- The values that the layers give to a key, in order.  Layers that are no objects give none. -/
def given (key : Text) (layers : List Json) : List Json :=
  layers.filterMap fun layer => member? key (some layer)

/-- The longest row of objects at the end of some values. -/
def lastObjects (values : List Json) : List Json := values.rtakeWhile fun v => decide v.IsObject

/-- What values under one key amount to. -/
def combined? (values : List Json) : Option Json :=
  values.getLast?.map fun last => if last.IsObject then merge (lastObjects values) else last

/-- What some layers amount to, at every depth: the members have the keys that some layer gives a value to,
a last value that is no object stands, and below one that is an object there is what the last row of objects
amounts to. -/
inductive AmountsTo : List Json → Json → Prop where
  | object {layers : List Json} {members : Keyed Json}
      (hsorted : members.Sorted)
      (hkeys : ∀ key, key ∈ members.map Prod.fst ↔ given key layers ≠ [])
      (halone : ∀ key last, (given key layers).getLast? = some last → ¬ last.IsObject →
        Keyed.get? key members = some last)
      (hrow : ∀ key last value, (given key layers).getLast? = some last → last.IsObject →
        Keyed.get? key members = some value → AmountsTo (lastObjects (given key layers)) value) :
      AmountsTo layers (.object members)

/-! ## The values under a key -/

/-- A layer more gives what it has under the key, behind what the others give. -/
theorem given_concat (key : Text) (layers : List Json) (last : Json) :
    given key (layers ++ [last]) = given key layers ++ (member? key (some last)).toList := by
  unfold given
  rw [List.filterMap_append]
  cases hlast : member? key (some last) with
  | none => simp [hlast]
  | some value => simp [hlast]

/-- What is given under a key is a member of one of the objects. -/
theorem mem_given_iff {key : Text} {layers : List Json} {value : Json} :
    value ∈ given key layers ↔
      ∃ members, .object members ∈ layers ∧ Keyed.get? key members = some value := by
  unfold given
  rw [List.mem_filterMap]
  constructor
  · rintro ⟨layer, hlayer, hvalue⟩
    match layer with
    | .object members => exact ⟨members, hlayer, hvalue⟩
    | .null | .bool _ | .number _ | .string _ | .array _ => cases hvalue
  · rintro ⟨members, hlayer, hvalue⟩
    exact ⟨.object members, hlayer, hvalue⟩

/-- Something is given under the keys of the objects and no others. -/
theorem given_ne_nil_iff {key : Text} {layers : List Json} :
    given key layers ≠ [] ↔ ∃ members, .object members ∈ layers ∧ key ∈ members.map Prod.fst := by
  constructor
  · intro h
    obtain ⟨value, hvalue⟩ := List.exists_mem_of_ne_nil _ h
    obtain ⟨members, hlayer, hget⟩ := mem_given_iff.1 hvalue
    exact ⟨members, hlayer, Keyed.isSome_get?_iff.1 (by simp [hget])⟩
  · rintro ⟨members, hlayer, hkey⟩
    obtain ⟨value, hget⟩ := Option.isSome_iff_exists.1 (Keyed.isSome_get?_iff.2 hkey)
    exact List.ne_nil_of_mem (mem_given_iff.2 ⟨members, hlayer, hget⟩)

/-- What ordered layers give to a key is ordered. -/
theorem ordered_of_mem_given {key : Text} {layers : List Json} (h : ∀ l ∈ layers, l.Ordered) {value : Json}
    (hvalue : value ∈ given key layers) : value.Ordered := by
  obtain ⟨members, hlayer, hget⟩ := mem_given_iff.1 hvalue
  exact (h _ hlayer).get? hget

/-- What a layer gives to a key is smaller than the layer. -/
theorem exists_sizeOf_lt_of_mem_given {key : Text} {layers : List Json} {value : Json}
    (hvalue : value ∈ given key layers) : ∃ layer ∈ layers, sizeOf value < sizeOf layer := by
  obtain ⟨members, hlayer, hget⟩ := mem_given_iff.1 hvalue
  refine ⟨.object members, hlayer, ?_⟩
  have hmember : sizeOf (key, value) < sizeOf members :=
    List.sizeOf_lt_of_mem (Keyed.mem_of_get?_eq_some hget)
  simp only [Prod.mk.sizeOf_spec, Json.object.sizeOf_spec] at hmember ⊢
  omega

/-- The last objects are among the values. -/
theorem mem_of_mem_lastObjects {values : List Json} {v : Json} (h : v ∈ lastObjects values) :
    v ∈ values :=
  (List.rtakeWhile_suffix _ values).subset h

/-! ## Key by key -/

/-- One object alone amounts to itself. -/
theorem merge_singleton {v : Json} (hordered : v.Ordered) (hobject : v.IsObject) : merge [v] = v := by
  obtain ⟨members, rfl⟩ := hobject
  exact congrArg Json.object (overlayMembers_nil hordered.sorted)

/-- One more value under a key is laid over what the values before it amount to. -/
theorem combined?_concat (values : List Json) {last : Json} (hlast : last.Ordered) :
    combined? (values ++ [last]) = some (overlay (combined? values) last) := by
  unfold combined? lastObjects
  rw [List.getLast?_concat, Option.map_some]
  by_cases hobject : last.IsObject
  · rw [if_pos hobject, List.rtakeWhile_concat_pos _ _ _ (by simpa using hobject)]
    rcases List.eq_nil_or_concat' values with rfl | ⟨front, before, rfl⟩
    · simp [merge_singleton hlast hobject, overlay_none]
    · rw [List.getLast?_concat, Option.map_some]
      by_cases hbefore : before.IsObject
      · rw [if_pos hbefore, merge_concat _ hobject]
      · -- What is no object ends the row, and the last value stands alone behind it.
        obtain ⟨members, rfl⟩ := hobject
        have halone : overlay (some before) (.object members) = .object members := by
          cases before with
          | object earlier => exact absurd (Json.isObject_object earlier) hbefore
          | _ => simp [overlay]
        rw [if_neg hbefore, List.rtakeWhile_concat_neg _ _ _ (by simpa using hbefore), List.nil_append,
          merge_singleton hlast (Json.isObject_object members), halone]
  · rw [if_neg hobject, overlay_of_not_isObject _ hobject]

/-- What is merged under a key is what the values given to it amount to. -/
theorem get?_merge {layers : List Json} (hordered : ∀ l ∈ layers, l.Ordered) (key : Text) :
    member? key (some (merge layers)) = combined? (given key layers) := by
  induction layers using List.reverseRecOn with
  | nil => rfl
  | append_singleton layers last ih =>
    have hlast : last.Ordered := hordered last (by simp)
    have hfront := ih fun l hl => hordered l (List.mem_append_left _ hl)
    rw [given_concat]
    by_cases hobject : last.IsObject
    · obtain ⟨incoming, rfl⟩ := hobject
      obtain ⟨members, hoverlay, hmembers⟩ :=
        exists_overlay_object (some (merge layers)) hlast.sorted
      rw [merge_concat _ (Json.isObject_object incoming), hoverlay, member?_object, hmembers, hfront,
        member?_object]
      cases hvalue : Keyed.get? key incoming with
      | none => simp
      | some value => simp [combined?_concat _ (hlast.get? hvalue)]
    · have hnone : member? key (some last) = none := by
        cases last with
        | object incoming => exact absurd (Json.isObject_object incoming) hobject
        | _ => rfl
      rw [hnone, merge_append_of_not_isObject layers (by simpa using hobject), hfront]
      simp

/-! ## At every depth -/

/-- Values combine to nothing only if there are none. -/
theorem combined?_eq_none_iff {values : List Json} : combined? values = none ↔ values = [] := by
  simp [combined?]

/-- A merge has the keys that some layer gives a value to. -/
theorem mem_keys_merge_iff {layers : List Json} (hordered : ∀ l ∈ layers, l.Ordered) {members : Keyed Json}
    (hmerge : merge layers = .object members) (key : Text) :
    key ∈ members.map Prod.fst ↔ given key layers ≠ [] := by
  have hget : Keyed.get? key members = combined? (given key layers) := by
    rw [← get?_merge hordered, hmerge, member?_object]
  rw [← Keyed.isSome_get?_iff, hget, Option.isSome_iff_ne_none, ne_eq, ne_eq, combined?_eq_none_iff]

/-- Layers amount to their merge.  The induction is on a bound for the size of the layers, as the values
given to a key are smaller. -/
theorem amountsTo_merge {layers : List Json} (hordered : ∀ l ∈ layers, l.Ordered) :
    AmountsTo layers (merge layers) := by
  have hbounded : ∀ (n : Nat) (layers : List Json), (∀ l ∈ layers, l.Ordered) →
      (∀ l ∈ layers, sizeOf l < n) → AmountsTo layers (merge layers) := by
    intro n
    induction n with
    | zero =>
      intro layers _ hsize
      obtain rfl : layers = [] := List.eq_nil_iff_forall_not_mem.2 fun l hl => absurd (hsize l hl) (by omega)
      exact .object .nil (by simp [given]) (by simp [given]) (by simp [given])
    | succ n ih =>
      intro layers hordered hsize
      have hget : ∀ key, Keyed.get? key (layers.foldl overlayLayer []) = combined? (given key layers) :=
        fun key => get?_merge hordered key
      refine .object (ordered_merge hordered).sorted (mem_keys_merge_iff hordered rfl) ?_ ?_
      · intro key last hlast halone
        rw [hget, combined?, hlast, Option.map_some, if_neg halone]
      · intro key last value hlast hobject hvalue
        rw [hget, combined?, hlast, Option.map_some, if_pos hobject] at hvalue
        rw [← Option.some.inj hvalue]
        apply ih
        · exact fun v hv => ordered_of_mem_given hordered (mem_of_mem_lastObjects hv)
        · intro v hv
          obtain ⟨layer, hlayer, hlt⟩ := exists_sizeOf_lt_of_mem_given (mem_of_mem_lastObjects hv)
          have hle := hsize layer hlayer
          omega
  exact hbounded (sizeOf layers) layers hordered fun l hl => List.sizeOf_lt_of_mem hl

/-- Layers amount to nothing but their merge. -/
theorem AmountsTo.eq_merge {layers : List Json} {v : Json} (h : AmountsTo layers v)
    (hordered : ∀ l ∈ layers, l.Ordered) : v = merge layers := by
  induction h with
  | @object layers members hsorted hkeys halone hrow ih =>
    have hmerged : Keyed.Sorted (layers.foldl overlayLayer []) := (ordered_merge hordered).sorted
    refine congrArg Json.object (Keyed.ext_of_sorted hsorted hmerged fun key => ?_)
    have hget : Keyed.get? key (layers.foldl overlayLayer []) = combined? (given key layers) :=
      get?_merge hordered key
    rw [hget]
    cases hlast : (given key layers).getLast? with
    | none =>
      have hnil : given key layers = [] := List.getLast?_eq_none_iff.1 hlast
      have hnone : ¬ (Keyed.get? key members).isSome = true := by
        rw [Keyed.isSome_get?_iff, hkeys, hnil]
        simp
      rw [combined?, hlast, Option.map_none]
      simpa using hnone
    | some last =>
      rw [combined?, hlast, Option.map_some]
      by_cases hobject : last.IsObject
      · have hne : given key layers ≠ [] := by
          intro hnil
          simp [hnil] at hlast
        obtain ⟨value, hvalue⟩ := Option.isSome_iff_exists.1 (Keyed.isSome_get?_iff.2 ((hkeys key).2 hne))
        have hbelow := ih key last value hlast hobject hvalue fun v hv =>
          ordered_of_mem_given hordered (mem_of_mem_lastObjects hv)
        rw [if_pos hobject, hvalue, hbelow]
      · rw [if_neg hobject, halone key last hlast hobject]

/-- Layers are merged key by key.  The merge is an object with the keys of the layers that are objects.
Under each key stands what the values given to it amount to: the last of them, or, if it is an object, the
merge of the last row of objects.  At every depth this is so, and nothing else than the merge is so. -/
theorem merge_key_by_key {layers : List Json} (hordered : ∀ l ∈ layers, l.Ordered) :
    (∃ members, merge layers = .object members ∧
      (∀ key, key ∈ members.map Prod.fst ↔
        ∃ others, .object others ∈ layers ∧ key ∈ others.map Prod.fst) ∧
      ∀ key last, (given key layers).getLast? = some last →
        Keyed.get? key members =
          some (if last.IsObject then merge (lastObjects (given key layers)) else last)) ∧
    ∀ v, AmountsTo layers v ↔ v = merge layers := by
  constructor
  · refine ⟨layers.foldl overlayLayer [], rfl, fun key => ?_, fun key last hlast => ?_⟩
    · rw [mem_keys_merge_iff hordered rfl, given_ne_nil_iff]
    · have hget : Keyed.get? key (layers.foldl overlayLayer []) = combined? (given key layers) :=
        get?_merge hordered key
      rw [hget, combined?, hlast, Option.map_some]
  · intro v
    constructor
    · intro h
      exact h.eq_merge hordered
    · rintro rfl
      exact amountsTo_merge hordered

/-- Objects before and after a word under one key, of which only the later ones count. -/
theorem merge_key_by_key_alternating :
    let word : Json := .string ['w']
    let first : Json := .object [(['k'], .object [(['x'], word)])]
    let second : Json := .object [(['k'], word)]
    let third : Json := .object [(['k'], .object [(['y'], .null)])]
    let fourth : Json := .object [(['k'], .object [(['z'], word)]), (['l'], .array [])]
    let layers := [first, second, .array [first], third, .null, fourth]
    AmountsTo layers (.object [(['k'], .object [(['y'], .null), (['z'], word)]), (['l'], .array [])]) := by
  intro word first second third fourth layers
  have hordered : ∀ l ∈ layers, l.Ordered := by
    have hword : word.Ordered := .string _
    have hfirst : first.Ordered := Json.ordered_singleton _ (Json.ordered_singleton _ hword)
    have hitems : Json.Ordered (.array []) := .array (by simp)
    have hfourth : fourth.Ordered :=
      (Json.ordered_singleton ['l'] hitems).insert ['k'] (Json.ordered_singleton ['z'] hword)
    simp only [layers, List.forall_mem_cons]
    exact ⟨hfirst, Json.ordered_singleton _ hword, .array (List.forall_mem_singleton.2 hfirst),
      Json.ordered_singleton _ (Json.ordered_singleton _ .null), .null, hfourth, by simp⟩
  exact ((merge_key_by_key hordered).2 _).2 (by cbv)

end Infill.Data
