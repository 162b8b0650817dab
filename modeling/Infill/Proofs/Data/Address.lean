import Infill.Proofs.Data.Precedence

/-!
# Addresses of nodes

A segment of a dotted path is a step from a node to one right below it: a key of an object, or a numeral that
is below the length of an array.  Such steps, one after the other, are the address of a node
(`LeadsBySteps`).  A path resolves to a node exactly if its segments are the address of the node, or if they
begin with the address of it and it is falsy (`resolve_eq_some_iff_endsAt`).

Numerals are read as numbers of 64 bits, so that a step into an array is taken only where the array has no
more items than there are such numbers (`Json.Indexable`).
-/

set_option autoImplicit false

namespace Infill

/-- Every item of every array in a value has an index. -/
inductive Json.Indexable : Json → Prop where
  | null : Indexable .null
  | bool (b : Bool) : Indexable (.bool b)
  | number (n : Number) : Indexable (.number n)
  | string (s : Text) : Indexable (.string s)
  | array {items : List Json} (hlength : items.length ≤ Data.indexLimit)
      (h : ∀ item ∈ items, Indexable item) : Indexable (.array items)
  | object {members : Keyed Json} (h : ∀ member ∈ members, Indexable member.2) :
      Indexable (.object members)

namespace Data

/-- A segment is a numeral of `i`: ASCII digits, with a plus sign at most in front. -/
def NamesIndex (segment : Text) (i : Nat) : Prop :=
  ∃ digits, (segment = digits ∨ segment = '+' :: digits) ∧ digits ≠ [] ∧
    (∀ d ∈ digits, d.isDigit = true) ∧ Numeral.value digits = i

/-- A segment leads from a node to one right below it. -/
inductive StepsTo : Json → Text → Json → Prop where
  | key {members : Keyed Json} {key : Text} {v : Json} (h : Keyed.get? key members = some v) :
      StepsTo (.object members) key v
  | index {items : List Json} {segment : Text} {i : Nat} {v : Json} (hindex : NamesIndex segment i)
      (h : items[i]? = some v) : StepsTo (.array items) segment v

/-- Some segments lead from a node to another one step by step. -/
inductive LeadsBySteps : Json → List Text → Json → Prop where
  | here (v : Json) : LeadsBySteps v [] v
  | step {v child w : Json} {segment : Text} {rest : List Text} (hstep : StepsTo v segment child)
      (h : LeadsBySteps child rest w) : LeadsBySteps v (segment :: rest) w

/-- All of some segments lead to a node, or the first of them do and the node is falsy. -/
def EndsAt (v : Json) (segments : List Text) (w : Json) : Prop :=
  ∃ front back, segments = front ++ back ∧ LeadsBySteps v front w ∧ (back = [] ∨ w.isFalsy = true)

variable {v w : Json} {segment : Text} {rest : List Text}

/-! ## Single steps -/

/-- A segment is read as an index if it is a numeral of a number of 64 bits. -/
theorem index?_eq_some_iff {i : Nat} :
    index? segment = some i ↔ NamesIndex segment i ∧ i < indexLimit := by
  have hlimit : 0 < indexLimit := by decide
  unfold index?
  split
  · rename_i digits
    rw [Numeral.below?_eq_some_iff hlimit]
    constructor
    · rintro ⟨hne, hdigits, hvalue, hi⟩
      exact ⟨⟨digits, .inr rfl, hne, hdigits, hvalue⟩, hi⟩
    · rintro ⟨⟨digits', hsegment | hsegment, hne, hdigits, hvalue⟩, hi⟩
      · -- A plus sign is no digit.
        have hplus : '+'.isDigit = true := hdigits '+' (hsegment ▸ List.mem_cons_self)
        exact absurd hplus (by decide)
      · cases hsegment
        exact ⟨hne, hdigits, hvalue, hi⟩
  · rename_i hplus
    rw [Numeral.below?_eq_some_iff hlimit]
    constructor
    · rintro ⟨hne, hdigits, hvalue, hi⟩
      exact ⟨⟨segment, .inl rfl, hne, hdigits, hvalue⟩, hi⟩
    · rintro ⟨⟨digits, rfl | hsegment, hne, hdigits, hvalue⟩, hi⟩
      · exact ⟨hne, hdigits, hvalue, hi⟩
      · exact absurd hsegment (hplus digits)

/-- A segment has one number at most as an index. -/
theorem NamesIndex.unique {i j : Nat} (hi : NamesIndex segment i) (hj : NamesIndex segment j) : i = j := by
  obtain ⟨digits, hsegment, -, hdigits, rfl⟩ := hi
  obtain ⟨digits', hsegment', -, hdigits', rfl⟩ := hj
  have hplus : ∀ ds : Text, (∀ d ∈ ds, d.isDigit = true) → ∀ ds', ds ≠ '+' :: ds' := by
    rintro ds hds ds' rfl
    exact absurd (hds '+' List.mem_cons_self) (by decide)
  rcases hsegment with rfl | rfl <;> rcases hsegment' with hsegment' | hsegment'
  · rw [hsegment']
  · exact absurd hsegment' (hplus _ hdigits _)
  · exact absurd hsegment'.symm (hplus _ hdigits' _)
  · rw [(List.cons.inj hsegment').2]

/-- A numeral that is not below the length of an array is no step into it, however many digits it has. -/
theorem child?_array_eq_none {items : List Json} {i : Nat} (hindex : NamesIndex segment i)
    (h : items.length ≤ i) : child? (.array items) segment = none := by
  show (index? segment).bind (items[·]?) = none
  rw [Option.bind_eq_none_iff]
  intro j hj
  obtain rfl := hindex.unique (index?_eq_some_iff.1 hj).1
  exact List.getElem?_eq_none h

/-- What stands under a segment is where the segment leads. -/
theorem child?_eq_some_iff (hv : v.Indexable) : child? v segment = some w ↔ StepsTo v segment w := by
  constructor
  · intro h
    cases v with
    | object members => exact .key h
    | array items =>
      obtain ⟨i, hi, hitem⟩ := Option.bind_eq_some_iff.1 h
      exact .index (index?_eq_some_iff.1 hi).1 hitem
    | _ => cases h
  · rintro (h | @⟨items, _, i, _, hindex, h⟩)
    · exact h
    · cases hv with
      | array hlength _ =>
        have hi : i < items.length := (List.getElem?_eq_some_iff.1 h).1
        have hread : index? segment = some i :=
          index?_eq_some_iff.2 ⟨hindex, Nat.lt_of_lt_of_le hi hlength⟩
        show (index? segment).bind (items[·]?) = some w
        rw [hread]
        exact h

/-- A step leads from what can be indexed to what can be indexed. -/
theorem StepsTo.indexable (h : StepsTo v segment w) (hv : v.Indexable) : w.Indexable := by
  cases h with
  | key h =>
    cases hv with
    | object hmembers => exact hmembers _ (Keyed.mem_of_get?_eq_some h)
  | index _ h =>
    cases hv with
    | array _ hitems => exact hitems _ (List.mem_of_getElem? h)

/-- Nothing stands below a falsy node. -/
theorem StepsTo.not_isFalsy (h : StepsTo v segment w) : v.isFalsy = false := by
  cases h <;> rfl

/-! ## Walks -/

/-- Where no segment is left, the walk ends. -/
theorem endsAt_nil_iff : EndsAt v [] w ↔ v = w := by
  constructor
  · rintro ⟨front, back, hsplit, hleads, -⟩
    obtain ⟨rfl, -⟩ := List.append_eq_nil_iff.1 hsplit.symm
    cases hleads
    rfl
  · rintro rfl
    exact ⟨[], [], rfl, .here v, .inl rfl⟩

/-- With a segment ahead the walk ends at a falsy node, and behind the segment otherwise. -/
theorem endsAt_cons_iff :
    EndsAt v (segment :: rest) w ↔
      (v.isFalsy = true ∧ v = w) ∨ ∃ child, StepsTo v segment child ∧ EndsAt child rest w := by
  constructor
  · rintro ⟨front, back, hsplit, hleads, hend⟩
    cases hleads with
    | here =>
      obtain rfl : segment :: rest = back := hsplit
      exact .inl ⟨hend.resolve_left (List.cons_ne_nil _ _), rfl⟩
    | step hstep hleads =>
      obtain ⟨rfl, rfl⟩ := List.cons.inj hsplit
      exact .inr ⟨_, hstep, _, back, rfl, hleads, hend⟩
  · rintro (⟨hfalsy, rfl⟩ | ⟨child, hstep, front, back, rfl, hleads, hend⟩)
    · exact ⟨[], _, rfl, .here v, .inr hfalsy⟩
    · exact ⟨segment :: front, back, rfl, .step hstep hleads, hend⟩

/-- A walk along keys ends where they lead, or at the first falsy node on the way. -/
theorem walk?_eq_some_iff (hv : v.Indexable) (hne : ∀ key ∈ rest, key ≠ []) :
    walk? v rest = some w ↔ EndsAt v rest w := by
  induction rest generalizing v with
  | nil => rw [endsAt_nil_iff, walk?, Option.some.injEq]
  | cons key rest ih =>
    obtain ⟨hkey, hrest⟩ := List.forall_mem_cons.1 hne
    rw [endsAt_cons_iff, walk?]
    by_cases hfalsy : v.isFalsy = true
    · rw [if_pos hfalsy, Option.some.injEq]
      constructor
      · exact fun h => .inl ⟨hfalsy, h⟩
      · rintro (⟨-, h⟩ | ⟨child, hstep, -⟩)
        · exact h
        · rw [hstep.not_isFalsy] at hfalsy
          cases hfalsy
    · rw [if_neg hfalsy, if_neg (by simpa using hkey), Option.bind_eq_some_iff]
      constructor
      · rintro ⟨child, hchild, hwalk⟩
        have hstep := (child?_eq_some_iff hv).1 hchild
        exact .inr ⟨child, hstep, (ih (hstep.indexable hv) hrest).1 hwalk⟩
      · rintro (⟨hfalsy', -⟩ | ⟨child, hstep, hends⟩)
        · exact absurd hfalsy' hfalsy
        · exact ⟨child, (child?_eq_some_iff hv).2 hstep, (ih (hstep.indexable hv) hrest).2 hends⟩

/-! ## Paths -/

/-- Paths with the same segments resolve alike, wherever empty segments stand between them. -/
theorem resolve_eq_of_keys_eq {path other : Text} (hkeys : keys other = keys path) (hne : keys path ≠ []) :
    resolve v other = resolve v path := by
  have hpath : ∀ p : Text, keys p ≠ [] → p ≠ [] := by
    rintro p hp rfl
    exact hp rfl
  cases hv : v.isFalsy with
  | true => simp [resolve, hv]
  | false =>
    rw [resolve_of_not_isFalsy hv (hpath other (hkeys ▸ hne)), resolve_of_not_isFalsy hv (hpath path hne),
      hkeys]

/-- Below a root that is not falsy a path resolves to a node exactly if its segments, but for the empty ones,
lead to the node step by step, or if the first of them do and the node is falsy.  Otherwise it resolves to
nothing.  Empty segments make no difference, and a numeral that is too large for an array never leads into
it. -/
theorem resolve_eq_some_iff_endsAt {path : Text} (hindexable : v.Indexable) (hv : v.isFalsy = false)
    (hpath : path ≠ []) :
    (∀ w, resolve v path = some w ↔ EndsAt v (keys path) w) ∧
    (resolve v path = none ↔ ∀ w, ¬ EndsAt v (keys path) w) ∧
    (∀ other, keys path ≠ [] → keys other = keys path → resolve v other = resolve v path) ∧
    ∀ items segment i, NamesIndex segment i → items.length ≤ i → child? (.array items) segment = none := by
  have hends : ∀ w, resolve v path = some w ↔ EndsAt v (keys path) w := by
    intro w
    rw [resolve_of_not_isFalsy hv hpath]
    exact walk?_eq_some_iff hindexable fun key hkey => ne_nil_of_mem_keys hkey
  refine ⟨hends, ?_, fun other hne hkeys => resolve_eq_of_keys_eq hkeys hne, fun items segment i =>
    child?_array_eq_none⟩
  rw [Option.eq_none_iff_forall_ne_some]
  exact forall_congr' fun w => not_congr (hends w)

/-- The path `.a..+01.x` into `{"a":[true,0]}` ends at the zero, whatever it asks of it, and with one point
less it does the same. -/
theorem resolve_eq_some_iff_endsAt_falsy :
    let v : Json := .object [(['a'], .array [.bool true, .number (.integer 0)])]
    let path : Text := ['.', 'a', '.', '.', '+', '0', '1', '.', 'x']
    let other : Text := ['a', '.', '+', '0', '1', '.', 'x']
    v.Indexable ∧ v.isFalsy = false ∧ resolve v path = some (.number (.integer 0)) ∧
      resolve v other = resolve v path := by
  intro v path other
  have hindexable : v.Indexable := by
    refine .object fun member hmember => ?_
    obtain rfl := List.mem_singleton.1 hmember
    refine .array (by decide) ?_
    simp only [List.mem_cons, List.not_mem_nil, or_false, forall_eq_or_imp, forall_eq]
    exact ⟨.bool true, .number _⟩
  have hkeys : keys path = [['a'], ['+', '0', '1'], ['x']] := by decide
  obtain ⟨hends, -, hsame, -⟩ := resolve_eq_some_iff_endsAt hindexable rfl (List.cons_ne_nil _ _ : path ≠ [])
  refine ⟨hindexable, rfl, (hends _).2 ?_, hsame other (by rw [hkeys]; simp) (by rw [hkeys]; decide)⟩
  have hindex : NamesIndex ['+', '0', '1'] 1 := ⟨['0', '1'], .inr rfl, by simp, List.all_eq_true.1 rfl, rfl⟩
  rw [hkeys]
  exact ⟨[['a'], ['+', '0', '1']], [['x']], rfl, .step (.key rfl) (.step (.index hindex rfl) (.here _)),
    .inr rfl⟩

end Data
end Infill
