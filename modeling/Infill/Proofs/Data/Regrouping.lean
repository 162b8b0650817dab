import Infill.Proofs.Data.Combined
import Infill.Proofs.Data.Precedence

/-!
# Regrouping layers

The first of some layers can always be merged by themselves first (`merge_append_eq_merge_cons`).  The last
ones cannot: an object that a later value has replaced by something else comes back to light if that value
is first merged with an object behind it.  Such a place, where an object stands, then a value that is none, and
then an object again, is the only obstacle (`SeparatedAt`, `overlay?_assoc`).

With that a context absorbs its layers (`merge_absorbs`): a layer that is laid below or above it once more
is separated from itself by nothing.
-/

set_option autoImplicit false

namespace Infill.Data

/-- Some keys lead through nested objects in three values to an object in the first and in the last one, and
to a value that is no object in the one between them. -/
def SeparatedAt (path : List Text) (a b c : Option Json) : Prop :=
  ∃ x y z, Leads a path x ∧ Leads b path y ∧ Leads c path z ∧ x.IsObject ∧ ¬ y.IsObject ∧ z.IsObject

variable {a b c : Option Json} {key : Text} {path : List Text}

/-! ## Three values -/

/-- Values are separated below a key if their members are. -/
theorem separatedAt_cons_iff :
    SeparatedAt (key :: path) a b c ↔ SeparatedAt path (member? key a) (member? key b) (member? key c) := by
  unfold SeparatedAt
  simp only [leads_cons_iff]

/-- Nothing separates what is not there from anything. -/
theorem not_separatedAt_none : ¬ SeparatedAt path none b c := by
  rintro ⟨x, y, z, hx, -⟩
  cases hx

/-- A value in the middle that is no object hides the first one, which is no object either. -/
theorem overlay?_assoc_of_not_isObject {y : Json} (hy : ¬ y.IsObject) (hc : ∀ v ∈ c, v.IsObject)
    (h : ¬ SeparatedAt [] a (some y) c) : overlay? a (overlay? (some y) c) = overlay? (overlay? a (some y)) c := by
  cases c with
  | none => rfl
  | some z =>
    have hfirst : ∀ x ∈ a, ¬ x.IsObject := by
      intro x hx hobject
      apply h
      exact ⟨x, y, z, leads_nil_iff.2 hx, .here y, .here z, hobject, hy, hc z rfl⟩
    have hmiddle : ∀ v ∈ some y, ¬ v.IsObject := by simpa using hy
    simp only [overlay?_some, overlay_eq_right hmiddle, overlay_eq_right hfirst]

/-- Three values may be laid over each other in either order, if nothing separates the first one from the
last.  The induction is on the last value; a path that separates the members under a key goes on from that
key. -/
theorem overlay?_assoc (ha : ∀ v ∈ a, v.Ordered) (hb : ∀ v ∈ b, v.Ordered) (hc : ∀ v ∈ c, v.Ordered)
    (h : ∀ path, ¬ SeparatedAt path a b c) : overlay? a (overlay? b c) = overlay? (overlay? a b) c := by
  cases c with
  | none => rfl
  | some c =>
    have hordered : c.Ordered := hc c rfl
    induction hordered generalizing a b with
    | @object members hsorted hmembers ih =>
      have hlast : ∀ v ∈ some (Json.object members), v.IsObject ∧ v.Ordered := by
        simpa using ⟨Json.isObject_object members, hc _ rfl⟩
      by_cases hobjects : ∀ v ∈ b, v.IsObject
      · have hmiddle : ∀ v ∈ b, v.IsObject ∧ v.Ordered := fun v hv => ⟨hobjects v hv, hb v hv⟩
        have hinner : ∀ v ∈ overlay? b (some (.object members)), v.IsObject ∧ v.Ordered := by
          intro v hv
          refine ⟨?_, ordered_overlay? hb hc v hv⟩
          obtain rfl := Option.some.inj hv
          exact isObject_overlay b (hlast _ rfl).1 (hlast _ rfl).2
        have hmember : ∀ key, member? key (overlay? a (overlay? b (some (.object members)))) =
            member? key (overlay? (overlay? a b) (some (.object members))) := by
          intro key
          rw [member?_overlay? a hinner, member?_overlay? b hlast, member?_overlay? _ hlast,
            member?_overlay? a hmiddle, member?_object]
          cases hvalue : Keyed.get? key members with
          | none => rfl
          | some value =>
            apply ih _ (Keyed.mem_of_get?_eq_some hvalue) (ordered_member? ha key) (ordered_member? hb key)
            · simpa using hmembers _ (Keyed.mem_of_get?_eq_some hvalue)
            · intro path hseparated
              apply h (key :: path)
              rwa [separatedAt_cons_iff, member?_object, hvalue]
        have hleft : Json.IsObject (overlay a (overlay b (.object members))) :=
          isObject_overlay a (hinner _ rfl).1 (hinner _ rfl).2
        have hright : Json.IsObject (overlay (overlay? a b) (.object members)) :=
          isObject_overlay _ (hlast _ rfl).1 (hlast _ rfl).2
        apply congrArg some
        apply eq_of_member?_eq _ _ hleft hright hmember
        · exact ordered_overlay? ha (ordered_overlay? hb hc) _ rfl
        · exact ordered_overlay? (ordered_overlay? ha hb) hc _ rfl
      · obtain ⟨y, hy, hnot⟩ : ∃ y, b = some y ∧ ¬ y.IsObject := by simpa using hobjects
        rw [hy]
        apply overlay?_assoc_of_not_isObject hnot (fun v hv => (hlast v hv).1)
        exact hy ▸ h []
    | _ => simp [overlay]

/-- A value over itself is the value. -/
theorem overlay?_self (ha : ∀ v ∈ a, v.Ordered) : overlay? a a = a := by
  cases a with
  | none => rfl
  | some v =>
    have hordered : v.Ordered := ha v rfl
    induction hordered with
    | @object members hsorted hmembers ih =>
      have hobject : ∀ v ∈ some (Json.object members), v.IsObject ∧ v.Ordered := by
        simpa using ⟨Json.isObject_object members, ha _ rfl⟩
      apply congrArg some
      apply eq_of_member?_eq (ordered_overlay? ha ha _ rfl) (ha _ rfl)
        (isObject_overlay _ (hobject _ rfl).1 (hobject _ rfl).2) (hobject _ rfl).1
      intro key
      refine (member?_overlay? _ hobject key).trans ?_
      rw [member?_object]
      cases hvalue : Keyed.get? key members with
      | none => rfl
      | some value =>
        have hmember := Keyed.mem_of_get?_eq_some hvalue
        exact ih _ hmember (by simpa using hmembers _ hmember)
    | _ => simp [overlay]

/-! ## Layers -/

/-- What a layer has to give: only objects have something. -/
def asLayer (layer : Json) : Option Json := if layer.IsObject then some layer else none

variable {layer first second third : Json} {layers : List Json}

/-- An object is a layer as it is. -/
theorem asLayer_of_isObject (h : layer.IsObject) : asLayer layer = some layer := if_pos h

/-- A layer is an object, and ordered if the value is. -/
theorem of_mem_asLayer (h : layer.Ordered) : ∀ v ∈ asLayer layer, v.IsObject ∧ v.Ordered := by
  intro v hv
  unfold asLayer at hv
  split_ifs at hv with hobject
  · obtain rfl := Option.some.inj hv
    exact ⟨hobject, h⟩
  · cases hv

/-- A layer has the members of the value. -/
theorem member?_asLayer (key : Text) (layer : Json) : member? key (asLayer layer) = member? key (some layer) := by
  cases layer <;> rfl

/-- The last layer of a merge is laid over what the others amount to, if it has anything to give. -/
theorem some_merge_concat (layers : List Json) (last : Json) :
    some (merge (layers ++ [last])) = overlay? (some (merge layers)) (asLayer last) := by
  unfold asLayer
  split_ifs with hobject
  · rw [merge_concat layers hobject, overlay?_some]
  · rw [merge_append_of_not_isObject layers (by simpa using hobject), overlay?_none]

/-- Layers come to an object. -/
theorem isObject_merge (layers : List Json) : (merge layers).IsObject := Json.isObject_object _

/-- Ordered layers come to an ordered object. -/
theorem some_ordered_merge (h : ∀ l ∈ layers, l.Ordered) : ∀ v ∈ some (merge layers), v.Ordered := by
  simpa using ordered_merge h

/-- The first layers may be merged by themselves first. -/
theorem merge_append_eq_merge_cons (layers later : List Json) :
    merge (layers ++ later) = merge (merge layers :: later) := by
  have hsorted : Keyed.Sorted (layers.foldl overlayLayer []) := sorted_foldl_overlayLayer layers .nil
  have hmerged : overlayLayer [] (merge layers) = layers.foldl overlayLayer [] := overlayMembers_nil hsorted
  rw [merge_append, merge, List.foldl_cons, hmerged]

/-- One layer comes to its own members. -/
theorem member?_merge_singleton (h : layer.Ordered) (key : Text) :
    member? key (some (merge [layer])) = member? key (some layer) := by
  have hconcat : some (merge [layer]) = overlay? (some (merge [])) (asLayer layer) := some_merge_concat [] layer
  rw [hconcat, member?_overlay? _ (of_mem_asLayer h), member?_asLayer]
  cases member? key (some layer) with
  | none => rfl
  | some value => exact congrArg some (overlay_none value)

/-- One layer alone has to give what it has to give among others. -/
theorem overlay?_merge_singleton (h : layer.Ordered) (layers : List Json) :
    overlay? (some (merge layers)) (some (merge [layer])) = overlay? (some (merge layers)) (asLayer layer) := by
  unfold asLayer
  split_ifs with hobject
  · rw [merge_singleton h hobject]
  · have hnothing : merge [layer] = .object [] := merge_append_of_not_isObject [] (by simpa using hobject)
    rw [hnothing]
    rfl

/-- Values with the same members lead to the same values by one key or more. -/
theorem leads_congr (h : ∀ key, member? key a = member? key b) (hne : path ≠ []) {v : Json} :
    Leads a path v ↔ Leads b path v := by
  obtain ⟨key, rest, rfl⟩ := List.exists_cons_of_ne_nil hne
  rw [leads_cons_iff, leads_cons_iff, h]

/-- What separates two values by one key or more depends on the members of the three values only. -/
theorem SeparatedAt.congr {a' b' c' : Option Json} (h : SeparatedAt path a b c) (hne : path ≠ [])
    (ha : ∀ key, member? key a = member? key a') (hb : ∀ key, member? key b = member? key b')
    (hc : ∀ key, member? key c = member? key c') : SeparatedAt path a' b' c' := by
  obtain ⟨x, y, z, hx, hy, hz, hobjects⟩ := h
  exact ⟨x, y, z, (leads_congr ha hne).1 hx, (leads_congr hb hne).1 hy, (leads_congr hc hne).1 hz, hobjects⟩

/-- The last two layers may be merged by themselves first, if the second last separates no objects. -/
theorem merge_append_merge (hlayers : ∀ l ∈ layers, l.Ordered) (hsecond : second.Ordered) (hthird : third.Ordered)
    (h : ∀ path, path ≠ [] → ¬ SeparatedAt path (some (merge layers)) (some second) (some third)) :
    merge (layers ++ [merge [second, third]]) = merge (layers ++ [second, third]) := by
  have hpair : some (merge [second, third]) = overlay? (some (merge [second])) (asLayer third) :=
    some_merge_concat [second] third
  have hmerged : ∀ v ∈ some (merge [second]), v.Ordered := some_ordered_merge (by simpa using hsecond)
  have hseparated : ∀ path, ¬ SeparatedAt path (some (merge layers)) (some (merge [second])) (asLayer third) := by
    intro path hpath
    by_cases hne : path = []
    · obtain ⟨-, y, -, -, hy, -, -, hnot, -⟩ := hpath
      rw [hne, leads_nil_iff] at hy
      exact hnot (Option.some.inj hy ▸ isObject_merge [second])
    · apply h path hne
      exact hpath.congr hne (fun _ => rfl) (member?_merge_singleton hsecond) (member?_asLayer · third)
  apply Option.some.inj
  calc some (merge (layers ++ [merge [second, third]]))
      = overlay? (some (merge layers)) (some (merge [second, third])) := by
        rw [some_merge_concat, asLayer_of_isObject (isObject_merge _)]
    _ = overlay? (overlay? (some (merge layers)) (some (merge [second]))) (asLayer third) := by
        rw [hpair]
        apply overlay?_assoc (some_ordered_merge hlayers) hmerged _ hseparated
        exact fun v hv => (of_mem_asLayer hthird v hv).2
    _ = overlay? (some (merge (layers ++ [second]))) (asLayer third) := by
        rw [overlay?_merge_singleton hsecond, ← some_merge_concat]
    _ = some (merge (layers ++ [second, third])) := by
        rw [← some_merge_concat, List.append_assoc, List.singleton_append]

/-- Between the first of three layers and the merge of the other two it is the same. -/
theorem merge_cons_merge (hfirst : first.Ordered) (hsecond : second.Ordered) (hthird : third.Ordered)
    (h : ∀ path, path ≠ [] → ¬ SeparatedAt path (some first) (some second) (some third)) :
    merge [first, merge [second, third]] = merge [first, second, third] := by
  have hlayers : ∀ l ∈ [first], l.Ordered := by simpa using hfirst
  apply merge_append_merge hlayers hsecond hthird
  intro path hne hseparated
  apply h path hne
  exact hseparated.congr hne (member?_merge_singleton hfirst) (fun _ => rfl) (fun _ => rfl)

/-- Under one key a word separates two objects: one after the other it hides the first one, and merged with the
last one first it does not. -/
example :
    let a : Json := .object [(['k'], .object [(['x'], .null)])]
    let b : Json := .object [(['k'], .string ['w'])]
    let c : Json := .object [(['k'], .object [])]
    merge [a, b, c] = .object [(['k'], .object [])] ∧
      merge [a, merge [b, c]] = .object [(['k'], .object [(['x'], .null)])] := by
  cbv

/-! ## Layers that are laid again -/

/-- A context absorbs its layers.  Merged alone it stays what it is, with its lower layer below it once more it
does, and with its upper layer above it once more it does, at every depth and whatever the two layers are. -/
theorem merge_absorbs (hfirst : first.Ordered) (hsecond : second.Ordered) :
    let context := merge [first, second]
    merge [context] = context ∧ merge [first, context] = context ∧ merge [context, second] = context := by
  intro context
  have hlower : ∀ v ∈ some (merge [first]), v.Ordered := some_ordered_merge (by simpa using hfirst)
  have hupper : ∀ v ∈ asLayer second, v.Ordered := fun v hv => (of_mem_asLayer hsecond v hv).2
  have hcontext : some context = overlay? (some (merge [first])) (asLayer second) :=
    some_merge_concat [first] second
  have halone : merge [context] = context := (merge_append_eq_merge_cons [first, second] []).symm
  refine ⟨halone, ?_, ?_⟩
  · apply Option.some.inj
    calc some (merge [first, context])
        = overlay? (some (merge [first])) (some context) := by
          rw [← asLayer_of_isObject (isObject_merge [first, second])]
          exact some_merge_concat [first] context
      _ = overlay? (overlay? (some (merge [first])) (some (merge [first]))) (asLayer second) := by
          rw [hcontext]
          apply overlay?_assoc hlower hlower hupper
          -- A value is not separated from anything by itself.
          rintro path ⟨x, y, z, hx, hy, -, hobject, hnot, -⟩
          exact hnot (hx.unique hy ▸ hobject)
      _ = some context := by rw [overlay?_self hlower, hcontext]
  · apply Option.some.inj
    calc some (merge [context, second])
        = overlay? (some (merge [context])) (asLayer second) := some_merge_concat [context] second
      _ = overlay? (some (merge [first])) (overlay? (asLayer second) (asLayer second)) := by
          rw [halone, hcontext]
          apply Eq.symm
          apply overlay?_assoc hlower hupper hupper
          rintro path ⟨x, y, z, -, hy, hz, -, hnot, hobject⟩
          exact hnot (hz.unique hy ▸ hobject)
      _ = some context := by rw [overlay?_self hupper, hcontext]

/-- Under one key two objects are merged, and under the other one an object replaces a word. -/
theorem merge_absorbs_mixed :
    let first : Json := .object [(['k'], .object [(['x'], .array [])]), (['l'], .string ['w'])]
    let second : Json := .object [(['k'], .object [(['y'], .null)]), (['l'], .object [])]
    let context : Json := .object [(['k'], .object [(['x'], .array []), (['y'], .null)]), (['l'], .object [])]
    merge [context] = context ∧ merge [first, context] = context ∧ merge [context, second] = context := by
  intro first second context
  have hlist : Json.Ordered (.array []) := .array (by simp)
  have hword : Json.Ordered (.object [(['l'], .string ['w'])]) := Json.ordered_singleton _ (.string _)
  have hempty : Json.Ordered (.object [(['l'], .object [])]) := Json.ordered_singleton _ Json.ordered_empty
  have hfirst : first.Ordered := hword.insert ['k'] (Json.ordered_singleton ['x'] hlist)
  have hsecond : second.Ordered := hempty.insert ['k'] (Json.ordered_singleton ['y'] .null)
  have hcontext : merge [first, second] = context := by cbv
  have habsorbs := merge_absorbs hfirst hsecond
  rwa [hcontext] at habsorbs

end Infill.Data
