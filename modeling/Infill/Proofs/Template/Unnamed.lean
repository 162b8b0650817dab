import Infill.Proofs.Data.Address
import Infill.Template.Render

/-!
# Data that no placeholder names

A value is put at an address (`putAt?`), which leads from the root along keys of members and indices of items to
a node, or to a new key of an object.  A path that follows the address for a while and then goes another way
(`PartsFrom`) does not see the difference: the nodes that it shares with the address are objects and arrays
before and after, and what it finds behind them is untouched (`resolve_putAt?`).

Filling asks for the paths of scanned placeholders only, whatever the values that are filled in look like.  So a
template from whose paths the address keeps clear is filled as before (`render_blind_to_unnamed`).
-/

set_option autoImplicit false

namespace Infill
namespace Data

/-- A step from a node to one right below it. -/
inductive Step where
  | key (key : Text)
  | index (i : Nat)
  deriving DecidableEq, Repr

/-- A segment of a path denotes a step: it is the key, or a numeral of the index. -/
def Denotes (segment : Text) : Step → Prop
  | .key key => segment = key
  | .index i => NamesIndex segment i

/-- The value with `x` at an address, given what stands at its root.  All nodes on the way have to be there, and
at the end of it there has to be a node or room for a new key. -/
def putAt? (x : Json) : List Step → Option Json → Option Json
  | [], _ => some x
  | .key key :: rest, some (.object members) =>
    (putAt? x rest (Keyed.get? key members)).map fun v => .object (Keyed.insert key v members)
  | .index i :: rest, some (.array items) =>
    items[i]?.bind fun item => (putAt? x rest (some item)).map fun v => .array (items.set i v)
  | _, _ => none

/-- Some segments follow an address to one of its nodes, and the next segment does not denote the next step. -/
inductive PartsFrom : List Text → List Step → Prop where
  | here {segment : Text} {step : Step} (h : ¬ Denotes segment step) (behind : List Text) (below : List Step) :
      PartsFrom (segment :: behind) (step :: below)
  | along {segment : Text} {step : Step} {behind : List Text} {below : List Step} (h : Denotes segment step)
      (hrest : PartsFrom behind below) : PartsFrom (segment :: behind) (step :: below)

variable {x v v' : Json} {step : Step} {rest : List Step} {segment : Text}

/-! ## What stands at a node before and after -/

/-- A value is put below a node in one of the members of an object or in one of the items of an array. -/
theorem putAt?_cons_eq_some (h : putAt? x (step :: rest) (some v) = some v') :
    (∃ key members child, step = .key key ∧ v = .object members ∧
      putAt? x rest (Keyed.get? key members) = some child ∧
      v' = .object (Keyed.insert key child members)) ∨
    ∃ i items item child, step = .index i ∧ v = .array items ∧ items[i]? = some item ∧
      putAt? x rest (some item) = some child ∧ v' = .array (items.set i child) := by
  match step, v, h with
  | .key key, .object members, h =>
    obtain ⟨child, hchild, rfl⟩ := Option.map_eq_some_iff.1 h
    exact .inl ⟨key, members, child, rfl, rfl, hchild, rfl⟩
  | .index i, .array items, h =>
    obtain ⟨item, hitem, h⟩ := Option.bind_eq_some_iff.1 h
    obtain ⟨child, hchild, rfl⟩ := Option.map_eq_some_iff.1 h
    exact .inr ⟨i, items, item, child, rfl, rfl, hitem, hchild, rfl⟩

/-- Nodes above an address are not falsy, before and after. -/
theorem isFalsy_of_putAt?_cons (h : putAt? x (step :: rest) (some v) = some v') :
    v.isFalsy = false ∧ v'.isFalsy = false := by
  rcases putAt?_cons_eq_some h with ⟨_, _, _, -, rfl, -, rfl⟩ | ⟨_, _, _, _, -, rfl, -, -, rfl⟩
  · exact ⟨rfl, rfl⟩
  · exact ⟨rfl, rfl⟩

/-- A segment that does not denote the next step leads to what it led to. -/
theorem child?_putAt?_of_not_denotes (h : putAt? x (step :: rest) (some v) = some v')
    (hsegment : ¬ Denotes segment step) : child? v' segment = child? v segment := by
  rcases putAt?_cons_eq_some h with
    ⟨key, members, child, rfl, rfl, -, rfl⟩ | ⟨i, items, item, child, rfl, rfl, -, -, rfl⟩
  · exact Keyed.get?_insert_of_ne hsegment child members
  · show (index? segment).bind ((items.set i child)[·]?) = (index? segment).bind (items[·]?)
    cases hindex : index? segment with
    | none => rfl
    | some j =>
      have hne : i ≠ j := by
        rintro rfl
        exact hsegment (index?_eq_some_iff.1 hindex).1
      exact List.getElem?_set_ne hne

/-- A segment that denotes the next step leads nowhere, before and after, or to nodes of which one is the other
with the value put below it. -/
theorem child?_putAt?_of_denotes (h : putAt? x (step :: rest) (some v) = some v') (hrest : rest ≠ [])
    (hsegment : Denotes segment step) :
    (child? v segment = none ∧ child? v' segment = none) ∨
      ∃ child child', child? v segment = some child ∧ child? v' segment = some child' ∧
        putAt? x rest (some child) = some child' := by
  rcases putAt?_cons_eq_some h with
    ⟨key, members, child', rfl, rfl, hput, rfl⟩ | ⟨i, items, item, child', rfl, rfl, hitem, hput, rfl⟩
  · obtain rfl : segment = key := hsegment
    cases hchild : Keyed.get? segment members with
    | none =>
      obtain ⟨step, rest, rfl⟩ := List.exists_cons_of_ne_nil hrest
      rw [hchild] at hput
      cases step <;> cases hput
    | some child =>
      rw [hchild] at hput
      exact .inr ⟨child, child', hchild, Keyed.get?_insert_self segment child' members, hput⟩
  · cases hindex : index? segment with
    | none => exact .inl ⟨by simp [child?, hindex], by simp [child?, hindex]⟩
    | some j =>
      obtain rfl : j = i := (index?_eq_some_iff.1 hindex).1.unique hsegment
      have hlt : j < items.length := (List.getElem?_eq_some_iff.1 hitem).1
      refine .inr ⟨item, child', by simp [child?, hindex, hitem], ?_, hput⟩
      simp [child?, hindex, hlt]

/-! ## Walks and paths that part from an address -/

/-- The address of a path has a step. -/
theorem PartsFrom.address_ne_nil {segments : List Text} {address : List Step} (h : PartsFrom segments address) :
    address ≠ [] := by
  cases h <;> exact List.cons_ne_nil _ _

/-- A walk that parts from the address of a value ends alike with and without the value. -/
theorem PartsFrom.walk?_putAt? {segments : List Text} {address : List Step} (h : PartsFrom segments address)
    (hne : ∀ segment ∈ segments, segment ≠ []) (hput : putAt? x address (some v) = some v') :
    walk? v' segments = walk? v segments := by
  -- Along the address both walks go to nodes of which one is the other with the value put below it.
  induction h generalizing v v' with
  | here hsegment behind below =>
    obtain ⟨hfalsy, hfalsy'⟩ := isFalsy_of_putAt?_cons hput
    obtain ⟨hkey, -⟩ := List.forall_mem_cons.1 hne
    rw [walk?_cons_of_not_isFalsy hfalsy hkey, walk?_cons_of_not_isFalsy hfalsy' hkey,
      child?_putAt?_of_not_denotes hput hsegment]
  | along hsegment hrest ih =>
    obtain ⟨hfalsy, hfalsy'⟩ := isFalsy_of_putAt?_cons hput
    obtain ⟨hkey, hbehind⟩ := List.forall_mem_cons.1 hne
    rw [walk?_cons_of_not_isFalsy hfalsy hkey, walk?_cons_of_not_isFalsy hfalsy' hkey]
    rcases child?_putAt?_of_denotes hput hrest.address_ne_nil hsegment with
      ⟨hchild, hchild'⟩ | ⟨child, child', hchild, hchild', hbelow⟩
    · rw [hchild, hchild']
    · rw [hchild, hchild']
      exact ih hbehind hbelow

/-- A path that parts from the address of a value resolves alike with and without the value. -/
theorem resolve_putAt? {path : Text} {address : List Step} (hput : putAt? x address (some v) = some v')
    (hparts : PartsFrom (keys path) address) : resolve v' path = resolve v path := by
  have hpath : path ≠ [] := by
    rintro rfl
    cases hparts
  obtain ⟨step, rest, rfl⟩ := List.exists_cons_of_ne_nil hparts.address_ne_nil
  obtain ⟨hfalsy, hfalsy'⟩ := isFalsy_of_putAt?_cons hput
  rw [resolve_of_not_isFalsy hfalsy hpath, resolve_of_not_isFalsy hfalsy' hpath]
  exact hparts.walk?_putAt? (fun _ => ne_nil_of_mem_keys) hput

end Data

/-! ## Filling -/

namespace Template

open Data

/-- Filling asks a context for the values of the placeholders, and for nothing else. -/
theorem fillAll_eq_of_valueOf_eq {context context' : Json} {placeholders : List Placeholder}
    (h : ∀ p ∈ placeholders, valueOf context' p = valueOf context p) (t : Text) :
    fillAll context' t placeholders = fillAll context t placeholders := by
  induction placeholders generalizing t with
  | nil => rfl
  | cons p placeholders ih =>
    obtain ⟨hp, hplaceholders⟩ := List.forall_mem_cons.1 h
    have hfill : fill context' t p = fill context t p := by rw [fill, fill, hp]
    show fillAll context' (fill context' t p) placeholders = fillAll context (fill context t p) placeholders
    rw [hfill, ih hplaceholders]

/-- A value that is put into the data of a template changes nothing, if the path of every placeholder that a
scan finds parts from the address of the value.  What the values that are filled in look like does not matter,
even if they name the address. -/
theorem render_blind_to_unnamed {t : Text} {d : Delimiters} {members : Keyed Json} {address : List Step}
    {x context : Json} (hput : putAt? x address (some (.object members)) = some context)
    (hparts : ∀ placeholders, scan t d = .ok placeholders →
      ∀ p ∈ placeholders, p.path ≠ [] → PartsFrom (keys p.path) address) :
    render t context d = render t (.object members) d := by
  rw [render, render]
  cases hscan : scan t d with
  | error e => rfl
  | ok placeholders =>
    have hvalue : ∀ p ∈ placeholders, valueOf context p = valueOf (.object members) p := by
      intro p hp
      by_cases hpath : p.path = []
      · simp [valueOf, hpath, resolve]
      · rw [valueOf, valueOf, resolve_putAt? hput (hparts placeholders hscan p hp hpath)]
    have hfilled := fillAll_eq_of_valueOf_eq hvalue t
    show Traced.andThen _ _ = Traced.andThen _ _
    simp only [Traced.andThen, Traced.ofExcept, hfilled]

/-- The text of `a.0` is a placeholder for `a.1.n`.  It is filled in as it is, and what is put there is not
asked for. -/
theorem render_blind_to_unnamed_injected :
    let d : Delimiters := ⟨['\x7b'], ['\x7d']⟩
    let injected : Text := ['\x7b', 'a', '.', '1', '.', 'n', '\x7d']
    let t : Text := ['\x7b', 'a', '.', '.', '0', '0', '\x7d', '\x7b', '\x7d']
    let members : Keyed Json := [(['a'], .array [.string injected, .object []])]
    let address : List Step := [.key ['a'], .index 1, .key ['n']]
    ∃ context, putAt? (.string ['N']) address (some (.object members)) = some context ∧
      render t context d = render t (.object members) d ∧ (render t context d).result = .ok injected := by
  intro d injected t members address
  let context : Json := .object [(['a'], .array [.string injected, .object [(['n'], .string ['N'])]])]
  have hput : putAt? (.string ['N']) address (some (.object members)) = some context := by rfl
  have hscan : scan t d = .ok [⟨['a', '.', '.', '0', '0'], ['\x7b', 'a', '.', '.', '0', '0', '\x7d']⟩,
      ⟨[], ['\x7b', '\x7d']⟩] := by cbv
  have hindex : ¬ Denotes ['0', '0'] (.index 1) := by
    intro hone
    have hzero : NamesIndex ['0', '0'] 0 := ⟨['0', '0'], .inl rfl, by simp, List.all_eq_true.1 rfl, rfl⟩
    exact absurd (hzero.unique hone) (by decide)
  have hkeys : keys ['a', '.', '.', '0', '0'] = [['a'], ['0', '0']] := by decide
  have hparts : ∀ placeholders, scan t d = .ok placeholders →
      ∀ p ∈ placeholders, p.path ≠ [] → PartsFrom (keys p.path) address := by
    intro placeholders hfound p hp hpath
    obtain rfl := Except.ok.inj (hscan.symm.trans hfound)
    simp only [List.mem_cons, List.not_mem_nil, or_false] at hp
    rcases hp with rfl | rfl
    · rw [hkeys]
      exact .along rfl (.here hindex [] _)
    · exact absurd rfl hpath
  have hblind := render_blind_to_unnamed hput hparts
  refine ⟨context, hput, hblind, ?_⟩
  rw [hblind]
  simp only [render, hscan]
  rfl

end Template
end Infill
