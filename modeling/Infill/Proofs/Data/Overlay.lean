import Infill.Data.Merge
import Infill.Proofs.Json.Ordered

/-!
# Laying values over each other

What `Data.overlay` makes of an earlier and a later value, key by key.  The rule is the same for a
value in a member, for the members of an object and for a layer: where there is no later value the
earlier one stays, and otherwise the two are overlaid (`overlay?`).  `exists_overlay_object` says so of
the members of an object, and `foldl_overlayLayer_induction` carries a property through all the layers
of a merge that are objects; one such property is that the members are in order (`ordered_merge`).
-/

set_option autoImplicit false

namespace Infill

/-- The value is an object. -/
def Json.IsObject (v : Json) : Prop := ∃ members, v = .object members

/-- An object is an object. -/
theorem Json.isObject_object (members : Keyed Json) : IsObject (.object members) := ⟨members, rfl⟩

/-- A text is no object. -/
theorem Json.not_isObject_string (t : Text) : ¬ IsObject (.string t) := by
  rintro ⟨_, h⟩
  cases h

/-- Every value is an object or none. -/
instance Json.decidableIsObject : DecidablePred Json.IsObject
  | .object members => .isTrue ⟨members, rfl⟩
  | .null => .isFalse (by rintro ⟨_, h⟩; cases h)
  | .bool _ => .isFalse (by rintro ⟨_, h⟩; cases h)
  | .number _ => .isFalse (by rintro ⟨_, h⟩; cases h)
  | .string _ => .isFalse (by rintro ⟨_, h⟩; cases h)
  | .array _ => .isFalse (by rintro ⟨_, h⟩; cases h)

namespace Data

/-- What stands where there may be an earlier and a later value. -/
def overlay? (old new : Option Json) : Option Json :=
  match new with
  | some value => some (overlay old value)
  | none => old

/-- The value under a key of what may be an object. -/
def member? (key : Text) : Option Json → Option Json
  | some (.object members) => Keyed.get? key members
  | _ => none

/-- Nothing changes what is there in no way. -/
@[simp] theorem overlay?_none (old : Option Json) : overlay? old none = old := rfl

/-- A value lies over whatever is there. -/
@[simp] theorem overlay?_some (old : Option Json) (value : Json) :
    overlay? old (some value) = some (overlay old value) := rfl

/-- The members of an object are found by their keys. -/
@[simp] theorem member?_object (key : Text) (members : Keyed Json) :
    member? key (some (.object members)) = Keyed.get? key members := rfl

/-- Nothing has no members. -/
@[simp] theorem member?_none (key : Text) : member? key none = none := rfl

/-- A value that is no object stands alone. -/
theorem overlay_of_not_isObject (old : Option Json) {new : Json} (h : ¬ new.IsObject) :
    overlay old new = new := by
  cases new with
  | object members => exact absurd (Json.isObject_object members) h
  | _ => simp [overlay]

/-- Over nothing a value stays what it is. -/
theorem overlay_none (new : Json) : overlay none new = new := by
  cases new <;> simp [overlay]

/-- Laying members over others is laying the values under each key over each other. -/
theorem get?_overlayMembers {incoming : Keyed Json} (h : incoming.Sorted) (target : Keyed Json)
    (key : Text) :
    Keyed.get? key (overlayMembers target incoming) =
      overlay? (Keyed.get? key target) (Keyed.get? key incoming) := by
  induction incoming generalizing target with
  | nil => simp [overlayMembers]
  | cons head rest ih =>
    obtain ⟨k, v⟩ := head
    obtain ⟨hhead, hrest⟩ := List.pairwise_cons.1 h
    rw [overlayMembers, ih hrest]
    by_cases hk : key = k
    · subst hk
      have hnone : Keyed.get? key rest = none := Keyed.get?_eq_none_of_forall_lt hhead
      simp [hnone, Keyed.get?]
    · rw [Keyed.get?_insert_of_ne hk]
      simp [Keyed.get?, hk]

/-- Members that are laid over others keep the order of the keys. -/
theorem sorted_overlayMembers (incoming : List (Text × Json)) {target : Keyed Json} (h : target.Sorted) :
    Keyed.Sorted (overlayMembers target incoming) := by
  induction incoming generalizing target with
  | nil => exact h
  | cons head rest ih => exact ih (Keyed.sorted_insert head.1 _ h)

/-- Members laid over nothing stay what they are. -/
theorem overlayMembers_nil {incoming : Keyed Json} (h : incoming.Sorted) : overlayMembers [] incoming = incoming := by
  apply Keyed.ext_of_sorted (sorted_overlayMembers incoming .nil) h
  intro key
  rw [get?_overlayMembers h, Keyed.get?_nil]
  cases Keyed.get? key incoming with
  | none => rfl
  | some value => rw [overlay?_some, overlay_none]

/-- A later object makes an object, in which the values under each key are overlaid. -/
theorem exists_overlay_object (old : Option Json) {incoming : Keyed Json} (h : incoming.Sorted) :
    ∃ members, overlay old (.object incoming) = .object members ∧
      ∀ key, Keyed.get? key members = overlay? (member? key old) (Keyed.get? key incoming) := by
  -- Over anything but an object the later one stands alone.
  have halone : ∀ key, Keyed.get? key incoming = overlay? none (Keyed.get? key incoming) := by
    intro key
    cases Keyed.get? key incoming with
    | none => rfl
    | some value => rw [overlay?_some, overlay_none]
  match old with
  | some (.object existing) =>
    exact ⟨overlayMembers existing incoming, by rw [overlay],
      fun key => get?_overlayMembers h existing key⟩
  | none => exact ⟨incoming, by rw [overlay]; simp, halone⟩
  | some .null | some (.bool _) | some (.number _) | some (.string _) | some (.array _) =>
    exact ⟨incoming, by rw [overlay]; simp, halone⟩

/-! ## Layers -/

/-- A layer that is an object is laid over the members so far. -/
theorem object_overlayLayer (target : Keyed Json) {layer : Json} (h : layer.IsObject) :
    Json.object (overlayLayer target layer) = overlay (some (.object target)) layer := by
  obtain ⟨members, rfl⟩ := h
  rw [overlay]
  rfl

/-- A layer that is no object is passed over. -/
theorem overlayLayer_of_not_isObject (target : Keyed Json) {layer : Json} (h : ¬ layer.IsObject) :
    overlayLayer target layer = target := by
  cases layer with
  | object members => exact absurd (Json.isObject_object members) h
  | _ => rfl

/-- A property of what has been merged so far holds at the end, if every layer that is an object
keeps it. -/
theorem foldl_overlayLayer_induction {P : Json → Prop} {layers : List Json}
    (hstep : ∀ old, ∀ layer ∈ layers, layer.IsObject → P old → P (overlay (some old) layer))
    {target : Keyed Json} (h : P (.object target)) :
    P (.object (layers.foldl overlayLayer target)) := by
  induction layers generalizing target with
  | nil => exact h
  | cons layer layers ih =>
    refine ih (fun old l hl => hstep old l (List.mem_cons_of_mem layer hl)) ?_
    by_cases hlayer : layer.IsObject
    · rw [object_overlayLayer target hlayer]
      exact hstep _ layer List.mem_cons_self hlayer h
    · rwa [overlayLayer_of_not_isObject target hlayer]

/-- However the members of the layers stand, those of a merge are sorted. -/
theorem sorted_foldl_overlayLayer (layers : List Json) {target : Keyed Json} (h : target.Sorted) :
    Keyed.Sorted (layers.foldl overlayLayer target) := by
  induction layers generalizing target with
  | nil => exact h
  | cons layer layers ih =>
    apply ih
    cases layer with
    | object members => exact sorted_overlayMembers members h
    | _ => exact h

/-- A merge goes on from what its first layers amount to. -/
theorem merge_append (layers later : List Json) :
    merge (layers ++ later) = .object (later.foldl overlayLayer (layers.foldl overlayLayer [])) := by
  rw [merge, List.foldl_append]

/-- The last layer of a merge, if it is an object, is laid over the others. -/
theorem merge_concat (layers : List Json) {last : Json} (h : last.IsObject) :
    merge (layers ++ [last]) = overlay (some (merge layers)) last := by
  rw [merge_append, List.foldl_cons, List.foldl_nil, object_overlayLayer _ h, ← merge]

/-- Last layers that are no objects do not count. -/
theorem merge_append_of_not_isObject (layers : List Json) {later : List Json}
    (h : ∀ layer ∈ later, ¬ layer.IsObject) : merge (layers ++ later) = merge layers := by
  rw [merge_append]
  refine foldl_overlayLayer_induction (P := fun x => x = merge layers) ?_ rfl
  intro old layer hlayer hobject
  exact absurd hobject (h layer hlayer)

/-! ## Ordered layers -/

/-- Ordered members laid over ordered members are ordered, if every single one of them is. -/
theorem ordered_overlayMembers {incoming : List (Text × Json)} {target : Keyed Json}
    (hstep : ∀ member ∈ incoming, ∀ old : Option Json, (∀ value ∈ old, value.Ordered) →
      (overlay old member.2).Ordered)
    (htarget : Json.Ordered (.object target)) :
    Json.Ordered (.object (overlayMembers target incoming)) := by
  induction incoming generalizing target with
  | nil => exact htarget
  | cons head rest ih =>
    obtain ⟨key, value⟩ := head
    have hold : ∀ old ∈ Keyed.get? key target, old.Ordered := fun old hget => htarget.get? hget
    have hvalue : (overlay (Keyed.get? key target) value).Ordered :=
      hstep (key, value) List.mem_cons_self _ hold
    exact ih (fun member hmember => hstep member (List.mem_cons_of_mem _ hmember))
      (htarget.insert key hvalue)

/-- An ordered value over an ordered one makes an ordered one. -/
theorem ordered_overlay {new : Json} (hnew : new.Ordered) (old : Option Json)
    (hold : ∀ value ∈ old, value.Ordered) : (overlay old new).Ordered := by
  induction hnew generalizing old with
  | object hsorted hmembers ih =>
    match old with
    | some (.object existing) =>
      rw [overlay]
      exact ordered_overlayMembers ih (hold _ rfl)
    | none | some .null | some (.bool _) | some (.number _) | some (.string _) | some (.array _) =>
      rw [overlay]
      · exact .object hsorted hmembers
      · simp
  | null => simpa [overlay] using Json.Ordered.null
  | bool b => simpa [overlay] using Json.Ordered.bool b
  | number n => simpa [overlay] using Json.Ordered.number n
  | string s => simpa [overlay] using Json.Ordered.string s
  | array hitems _ => simpa [overlay] using Json.Ordered.array hitems

/-- Ordered layers amount to an ordered object. -/
theorem ordered_merge {layers : List Json} (h : ∀ layer ∈ layers, layer.Ordered) :
    (merge layers).Ordered := by
  refine foldl_overlayLayer_induction (P := Json.Ordered) ?_ Json.ordered_empty
  intro old layer hlayer _ hold
  exact ordered_overlay (h layer hlayer) _ (by simpa using hold)

/-! ## Members of what is laid over something -/

section Members

variable {a b : Option Json}

/-- Over what is no object a value stays what it is. -/
theorem overlay_eq_right (hold : ∀ v ∈ a, ¬ v.IsObject) (new : Json) : overlay a new = new := by
  match a with
  | none => exact overlay_none new
  | some (.object members) => exact absurd (Json.isObject_object members) (hold _ rfl)
  | some .null | some (.bool _) | some (.number _) | some (.string _) | some (.array _) =>
    cases new <;> simp [overlay]

/-- An object over anything gives an object. -/
theorem isObject_overlay (old : Option Json) {new : Json} (h : new.IsObject) (hnew : new.Ordered) :
    (overlay old new).IsObject := by
  obtain ⟨incoming, rfl⟩ := h
  obtain ⟨members, hoverlay, -⟩ := exists_overlay_object old hnew.sorted
  exact ⟨members, hoverlay⟩

/-- The members of an object, or of nothing, are laid over the members of what was there. -/
theorem member?_overlay? (old : Option Json) (hnew : ∀ v ∈ b, v.IsObject ∧ v.Ordered) (key : Text) :
    member? key (overlay? old b) = overlay? (member? key old) (member? key b) := by
  cases b with
  | none => rfl
  | some new =>
    obtain ⟨⟨incoming, rfl⟩, hordered⟩ := hnew new rfl
    obtain ⟨members, hoverlay, hmembers⟩ := exists_overlay_object old hordered.sorted
    rw [overlay?_some, hoverlay]
    exact hmembers key

/-- The members of ordered values are ordered. -/
theorem ordered_member? (h : ∀ v ∈ a, v.Ordered) (key : Text) : ∀ v ∈ member? key a, v.Ordered := by
  intro v hv
  match a with
  | some (.object members) => exact (h _ rfl).get? hv
  | none | some .null | some (.bool _) | some (.number _) | some (.string _) | some (.array _) => cases hv

/-- Ordered values over one another give an ordered value. -/
theorem ordered_overlay? (ha : ∀ v ∈ a, v.Ordered) (hb : ∀ v ∈ b, v.Ordered) : ∀ v ∈ overlay? a b, v.Ordered := by
  cases b with
  | none => exact ha
  | some new =>
    intro v hv
    obtain rfl := Option.some.inj hv
    exact ordered_overlay (hb new rfl) a ha

/-- Ordered objects with the same members are the same. -/
theorem eq_of_member?_eq {v w : Json} (hv : v.Ordered) (hw : w.Ordered) (hobject : v.IsObject)
    (hobject' : w.IsObject) (h : ∀ key, member? key (some v) = member? key (some w)) : v = w := by
  obtain ⟨members, rfl⟩ := hobject
  obtain ⟨members', rfl⟩ := hobject'
  exact congrArg Json.object (Keyed.ext_of_sorted hv.sorted hw.sorted h)

end Members

end Data
end Infill
