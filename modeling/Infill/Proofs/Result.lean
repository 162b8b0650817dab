import Infill.Log

/-!
# Results that are there

A computation that may fail is read from its end: if there is a result, each step on the way to it had
one.  Where only a property of the result matters, it is followed through the steps and branches of the
computation instead (`Gives`).  Two computations of one shape are followed together, and end alike if
their steps do (`Alike`).
-/

set_option autoImplicit false

namespace Infill.Result

variable {ε ε' α β : Type}

/-- A computation in two steps succeeds if both do. -/
theorem bind_eq_ok {x : Except ε α} {f : α → Except ε β} {b : β} :
    (x >>= f) = .ok b ↔ ∃ a, x = .ok a ∧ f a = .ok b := by
  cases x <;> simp [bind, Except.bind]

/-- A result is not put in other words. -/
@[simp] theorem mapError_ok (f : ε → ε') (a : α) :
    (Except.ok a : Except ε α).mapError f = .ok a := rfl

/-- An error is put in other words. -/
@[simp] theorem mapError_error (f : ε → ε') (e : ε) :
    (Except.error e : Except ε α).mapError f = .error (f e) := rfl

/-- An error put in other words is no result. -/
@[simp] theorem mapError_eq_ok {x : Except ε α} {f : ε → ε'} {a : α} :
    x.mapError f = .ok a ↔ x = .ok a := by
  cases x <;> simp

/-- An error put in other words was an error. -/
@[simp] theorem mapError_eq_error {x : Except ε α} {f : ε → ε'} {e' : ε'} :
    x.mapError f = .error e' ↔ ∃ e, x = .error e ∧ f e = e' := by
  cases x <;> simp

/-- What is made of a result makes no error. -/
@[simp] theorem map_eq_error {x : Except ε α} {f : α → β} {e : ε} :
    x.map f = .error e ↔ x = .error e := by
  cases x <;> simp [Except.map]

/-! ## Lists of results -/

section List

variable {f : α → Except ε β} {x : α} {xs more : List α} {y : β} {ys : List β}

/-- Some computations have results if the first one has one and the others have. -/
theorem mapM_cons_eq_ok :
    (x :: xs).mapM f = .ok ys ↔ ∃ y rest, f x = .ok y ∧ xs.mapM f = .ok rest ∧ ys = y :: rest := by
  rw [List.mapM_cons, bind_eq_ok]
  refine exists_congr fun y => ?_
  rw [bind_eq_ok]
  constructor
  · rintro ⟨hy, rest, hrest, heq⟩
    exact ⟨rest, hy, hrest, (Except.ok.inj heq).symm⟩
  · rintro ⟨rest, hy, hrest, rfl⟩
    exact ⟨hy, rest, hrest, rfl⟩

/-- If each of some computations has a result, all of them have. -/
theorem exists_mapM_eq_ok (h : ∀ x ∈ xs, ∃ y, f x = .ok y) : ∃ ys, xs.mapM f = .ok ys := by
  induction xs with
  | nil => exact ⟨[], rfl⟩
  | cons x xs ih =>
    obtain ⟨y, hy⟩ := h x List.mem_cons_self
    obtain ⟨rest, hrest⟩ := ih fun x hx => h x (List.mem_cons_of_mem _ hx)
    exact ⟨y :: rest, mapM_cons_eq_ok.2 ⟨y, rest, hy, hrest, rfl⟩⟩

/-- Some computations and more have results if the first ones have and the others have. -/
theorem mapM_append_eq_ok :
    (xs ++ more).mapM f = .ok ys ↔
      ∃ front back, xs.mapM f = .ok front ∧ more.mapM f = .ok back ∧ ys = front ++ back := by
  induction xs generalizing ys with
  | nil =>
    constructor
    · exact fun h => ⟨[], ys, rfl, h, rfl⟩
    · rintro ⟨front, back, hfront, hback, rfl⟩
      obtain rfl : [] = front := Except.ok.inj hfront
      exact hback
  | cons x xs ih =>
    rw [List.cons_append, mapM_cons_eq_ok]
    constructor
    · rintro ⟨y, rest, hy, hrest, rfl⟩
      obtain ⟨front, back, hfront, hback, rfl⟩ := ih.1 hrest
      exact ⟨y :: front, back, mapM_cons_eq_ok.2 ⟨y, front, hy, hfront, rfl⟩, hback, rfl⟩
    · rintro ⟨front, back, hfront, hback, rfl⟩
      obtain ⟨y, rest, hy, hrest, rfl⟩ := mapM_cons_eq_ok.1 hfront
      exact ⟨y, rest ++ back, hy, ih.2 ⟨rest, back, hrest, hback, rfl⟩, rfl⟩

/-- If some computations do not all have a result, one of them has the error. -/
theorem exists_of_mapM_eq_error {e : ε} (h : xs.mapM f = .error e) : ∃ x ∈ xs, f x = .error e := by
  induction xs with
  | nil => cases h
  | cons x xs ih =>
    rw [List.mapM_cons] at h
    cases hx : f x with
    | error e' =>
      rw [hx] at h
      obtain rfl : e' = e := Except.error.inj h
      exact ⟨x, List.mem_cons_self, hx⟩
    | ok y =>
      cases hrest : xs.mapM f with
      | error e' =>
        rw [hx, hrest] at h
        obtain rfl : e' = e := Except.error.inj h
        obtain ⟨x', hx', hf⟩ := ih hrest
        exact ⟨x', List.mem_cons_of_mem x hx', hf⟩
      | ok rest =>
        rw [hx, hrest] at h
        cases h

/-- Results give values with their errors in other words, if they are values. -/
theorem mapM_mapError_eq_ok {g : ε → ε'} {items : List (Except ε α)} {values : List α} :
    items.mapM (·.mapError g) = .ok values ↔ items = values.map .ok := by
  induction items generalizing values with
  | nil =>
    rw [List.mapM_nil, eq_comm, eq_comm (a := []), List.map_eq_nil_iff]
    exact ⟨Except.ok.inj, congrArg _⟩
  | cons item items ih =>
    rw [mapM_cons_eq_ok]
    constructor
    · rintro ⟨value, rest, hitem, hrest, rfl⟩
      rw [mapError_eq_ok.1 hitem, ih.1 hrest, List.map_cons]
    · intro h
      obtain ⟨value, rest, rfl, rfl, rfl⟩ := List.map_eq_cons_iff.1 h.symm
      exact ⟨value, rest, rfl, ih.2 rfl, rfl⟩

/-- Results without an error among them are values. -/
theorem exists_eq_map_ok {items : List (Except ε α)} (h : ∀ e, .error e ∉ items) :
    ∃ xs : List α, items = xs.map .ok := by
  induction items with
  | nil => exact ⟨[], rfl⟩
  | cons item items ih =>
    obtain ⟨xs, rfl⟩ := ih fun e he => h e (List.mem_cons_of_mem item he)
    cases item with
    | error e => exact absurd List.mem_cons_self (h e)
    | ok x => exact ⟨x :: xs, rfl⟩

/-- What is among the results of some computations is the result of one of them. -/
theorem exists_of_mem_mapM (h : xs.mapM f = .ok ys) (hy : y ∈ ys) : ∃ x ∈ xs, f x = .ok y := by
  induction xs generalizing ys with
  | nil =>
    obtain rfl : [] = ys := Except.ok.inj h
    cases hy
  | cons x xs ih =>
    obtain ⟨y', rest, hy', hrest, rfl⟩ := mapM_cons_eq_ok.1 h
    rcases List.mem_cons.1 hy with rfl | hy
    · exact ⟨x, List.mem_cons_self, hy'⟩
    · obtain ⟨x', hx', hf⟩ := ih hrest hy
      exact ⟨x', List.mem_cons_of_mem x hx', hf⟩

end List

/-! ## Properties of a result -/

/-- The result, if there is one, has a property. -/
def Gives (P : α → Prop) (x : Except ε α) : Prop := ∀ a, x = .ok a → P a

namespace Gives

variable {P : α → Prop}

/-- A result has to have the property. -/
theorem ok {a : α} (h : P a) : Gives P (.ok a : Except ε α) := by
  intro b hb
  cases hb
  exact h

/-- An error is no result. -/
theorem error (e : ε) : Gives P (.error e : Except ε α) := by
  intro b hb
  cases hb

/-- Each branch has to give the property where it is taken. -/
theorem branch {c : Prop} [Decidable c] {x y : Except ε α} (hx : c → Gives P x) (hy : ¬ c → Gives P y) :
    Gives P (if c then x else y) := by
  by_cases hc : c
  · rw [if_pos hc]
    exact hx hc
  · rw [if_neg hc]
    exact hy hc

/-- Both branches have to give the property. -/
theorem ite {c : Prop} [Decidable c] {x y : Except ε α} (hx : Gives P x) (hy : Gives P y) :
    Gives P (if c then x else y) :=
  branch (fun _ => hx) fun _ => hy

/-- The second step has to give the property for every result of the first. -/
theorem bind {x : Except ε β} {f : β → Except ε α} (h : ∀ b, x = .ok b → Gives P (f b)) :
    Gives P (x >>= f) := by
  intro a ha
  obtain ⟨b, hb, ha⟩ := bind_eq_ok.1 ha
  exact h b hb a ha

/-- What is made of a result has to have the property. -/
theorem map {x : Except ε β} {f : β → α} (h : ∀ b, x = .ok b → P (f b)) : Gives P (x.map f) := by
  intro a ha
  cases x with
  | error e => cases ha
  | ok b =>
    obtain rfl : f b = a := Except.ok.inj ha
    exact h b rfl

end Gives

/-! ## Results that are alike -/

/-- Two computations give the same result, or two errors that are related. -/
inductive Alike (R : ε → ε' → Prop) : Except ε α → Except ε' α → Prop where
  | ok (a : α) : Alike R (.ok a) (.ok a)
  | error {e : ε} {e' : ε'} (h : R e e') : Alike R (.error e) (.error e')

namespace Alike

variable {R : ε → ε' → Prop} {x : Except ε α} {y : Except ε' α}

/-- A computation is like itself. -/
theorem refl {R : ε → ε → Prop} (h : ∀ e, R e e) (x : Except ε α) : Alike R x x := by
  cases x with
  | ok a => exact .ok a
  | error e => exact .error (h e)

/-- Computations alike are alike after the same further step. -/
theorem bind (h : Alike R x y) {f : α → Except ε β} {g : α → Except ε' β}
    (hstep : ∀ a, Alike R (f a) (g a)) : Alike R (x.bind f) (y.bind g) := by
  cases h with
  | ok a => exact hstep a
  | error h => exact .error h

/-- What is made of results alike is alike. -/
theorem map (h : Alike R x y) (f : α → β) : Alike R (x.map f) (y.map f) := by
  cases h with
  | ok a => exact .ok (f a)
  | error h => exact .error h

/-- Errors put in other words are alike if the words are related. -/
theorem mapError {δ δ' : Type} {S : δ → δ' → Prop} {φ : ε → δ} {ψ : ε' → δ'} (h : Alike R x y)
    (hS : ∀ e e', R e e' → S (φ e) (ψ e')) : Alike S (x.mapError φ) (y.mapError ψ) := by
  cases h with
  | ok a => exact .ok a
  | error h => exact .error (hS _ _ h)

end Alike
end Infill.Result
