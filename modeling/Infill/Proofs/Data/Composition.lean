import Infill.Proofs.Data.Precedence
import Infill.Proofs.Text.Parts

/-!
# Paths behind paths

A path with another one behind it, and a point between the two, names what the second one names below the node
that the first one names (`resolve_append`).  The keys of the whole are those of the one and those of the other
(`keys_append`), wherever empty segments stand, and a walk along them may be halted anywhere: it goes on from
where it was halted (`walk?_append`).  Only a falsy node in between makes a difference.  A walk that goes on from
it stays there, although nothing is named below a falsy root.
-/

set_option autoImplicit false

namespace Infill.Data

/-- A walk goes on from where it was halted. -/
theorem walk?_append (v : Json) (front back : List Text) :
    walk? v (front ++ back) = (walk? v front).bind (walk? · back) := by
  induction front generalizing v with
  | nil => rfl
  | cons segment front ih =>
    rw [List.cons_append]
    cases hv : v.isFalsy with
    | true => rw [walk?_of_isFalsy hv, walk?_of_isFalsy hv, Option.bind_some, walk?_of_isFalsy hv]
    | false =>
      by_cases hsegment : segment = []
      · rw [hsegment, walk?_nil_cons, walk?_nil_cons, ih]
      · rw [walk?_cons_of_not_isFalsy hv hsegment, walk?_cons_of_not_isFalsy hv hsegment, Option.bind_assoc]
        simp only [ih]

/-- The keys of a path behind another one follow those of that. -/
theorem keys_append (p q : Text) : keys (p ++ '.' :: q) = keys p ++ keys q := by
  rw [keys, Text.splitOn_append, List.filter_append, ← keys, ← keys]

/-- A path with another one behind it resolves to nothing if the first one does, to what the first one does if
that is falsy, and otherwise to what the second one does below that. -/
theorem resolve_append (v : Json) {p q : Text} (hp : p ≠ []) (hq : q ≠ []) :
    resolve v (p ++ ['.'] ++ q) =
      (resolve v p).bind fun w => if w.isFalsy then some w else resolve w q := by
  have hwhole : p ++ '.' :: q ≠ [] := by simp
  rw [List.append_assoc, List.singleton_append]
  cases hv : v.isFalsy with
  | true => simp [resolve, hv]
  | false =>
    have hbehind : ∀ w : Json, walk? w (keys q) = if w.isFalsy then some w else resolve w q := by
      intro w
      cases hw : w.isFalsy with
      | true => exact walk?_of_isFalsy hw _
      | false => exact (resolve_of_not_isFalsy hw hq).symm
    calc resolve v (p ++ '.' :: q) = walk? v (keys (p ++ '.' :: q)) := resolve_of_not_isFalsy hv hwhole
      _ = (walk? v (keys p)).bind (walk? · (keys q)) := by rw [keys_append, walk?_append]
      _ = (resolve v p).bind fun w => if w.isFalsy then some w else resolve w q := by
        simp only [resolve_of_not_isFalsy hv hp, hbehind]

/-- The path `.a.+1.` leads to an object below which `.b.c` is resolved, and `a.0` to a null with which any path
behind it ends. -/
theorem resolve_append_halted :
    let inner : Json := .object [(['b'], .number (.integer 0))]
    let v : Json := .object [(['a'], .array [.null, inner])]
    let p : Text := ['.', 'a', '.', '+', '1', '.']
    let q : Text := ['.', 'b', '.', 'c']
    let r : Text := ['a', '.', '0']
    (p ≠ [] ∧ q ≠ [] ∧ resolve v p = some inner ∧ resolve v (p ++ ['.'] ++ q) = resolve inner q) ∧
      (r ≠ [] ∧ resolve v r = some .null ∧ resolve v (r ++ ['.'] ++ q) = some .null) := by
  intro inner v p q r
  have hp : p ≠ [] := List.cons_ne_nil _ _
  have hq : q ≠ [] := List.cons_ne_nil _ _
  have hr : r ≠ [] := List.cons_ne_nil _ _
  have hinner : resolve v p = some inner := rfl
  have hnull : resolve v r = some .null := rfl
  refine ⟨⟨hp, hq, hinner, ?_⟩, hr, hnull, ?_⟩
  · rw [resolve_append v hp hq, hinner]
    rfl
  · rw [resolve_append v hr hq, hnull]
    rfl

end Infill.Data
