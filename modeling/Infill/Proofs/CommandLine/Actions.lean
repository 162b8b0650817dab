import Infill.CommandLine.Action
import Infill.Proofs.Result

/-!
# What actions leave when they fail

An action that only looks leaves everything as it was (`Looks`), and one that is all or nothing does so if it fails
(`AllOrNothing`).  A step that may fail can be put in front of an action that is all or nothing if it only looks, and
behind it may come what never fails (`Succeeds`).  A command is put together from its steps by these two laws, so that
a step which wrote or printed before another that can fail would have no place in it.
-/

set_option autoImplicit false

namespace Infill.Action

variable {ε α β γ : Type} {x : Action ε α} {f : α → Action ε β}

/-! ## Laws of actions -/

/-- Looking in two steps is looking once. -/
theorem look_bind (f : FileTree → Traced ε α) (g : FileTree → α → Traced ε β) :
    (look fun t => f t >>= g t) = (look f >>= fun a => look fun t => g t a) := by
  funext before
  change ((f before.files).andThen (g before.files), before) = andThen (look f) (fun a => look fun t => g t a) before
  unfold Traced.andThen andThen look
  dsimp only
  obtain ⟨result, log⟩ := f before.files
  cases result <;> rfl

/-- Of three actions, the last two can be taken together. -/
theorem bind_bind (x : Action ε α) (f : α → Action ε β) (g : β → Action ε γ) :
    (x >>= f >>= g) = x >>= fun a => f a >>= g := by
  funext before
  cases hx : (x before).1.result with
  | error e =>
    have hfirst := bind_of_error f hx
    rw [bind_of_error _ hx, bind_of_error g (by rw [hfirst]), hfirst]
  | ok a =>
    have hfirst := bind_of_ok f hx
    rw [bind_of_ok _ hx]
    cases hf : (f a (x before).2).1.result with
    | error e => rw [bind_of_error g (by rw [hfirst]; exact hf), bind_of_error g hf, hfirst]
    | ok b =>
      rw [bind_of_ok g (by rw [hfirst]; exact hf), bind_of_ok g hf, hfirst]
      simp only [List.append_assoc]

section Update

variable (before : Effect) {f : FileTree → Traced ε FileTree}

/-- A change that succeeds leaves its files, and nothing else is different. -/
theorem update_of_ok {files : FileTree} (h : (f before.files).result = .ok files) :
    (update f before).1.result = .ok () ∧ (update f before).2 = { before with files := files } := by
  unfold update
  generalize f before.files = traced at h ⊢
  obtain ⟨result, log⟩ := traced
  obtain rfl : result = .ok files := h
  exact ⟨rfl, rfl⟩

/-- A change that fails is an error, and nothing is different. -/
theorem update_of_error {e : ε} (h : (f before.files).result = .error e) :
    (update f before).1.result = .error e ∧ (update f before).2 = before := by
  unfold update
  generalize f before.files = traced at h ⊢
  obtain ⟨result, log⟩ := traced
  obtain rfl : result = .error e := h
  exact ⟨rfl, rfl⟩

end Update

/-! ## Actions that only look -/

/-- The action leaves what was done before, whether it fails or not. -/
def Looks (x : Action ε α) : Prop := ∀ before, (x before).2 = before

/-- To look changes nothing and prints nothing. -/
theorem looks_look (f : FileTree → Traced ε α) : Looks (look f) := fun _ => rfl

/-- If an action only looks, the next one starts where it did. -/
theorem Looks.effect_bind (hx : Looks x) (f : α → Action ε β) (before : Effect) :
    ((x >>= f) before).2 =
      match (x before).1.result with
      | .ok a => (f a before).2
      | .error _ => before := by
  have heffect := Action.effect_bind x f before
  rw [hx before] at heffect
  exact heffect

/-- Looking again and again is only looking. -/
theorem looks_forM {f : α → Action ε Unit} (hf : ∀ a, Looks (f a)) (items : List α) : Looks (items.forM f) := by
  induction items with
  | nil => exact fun _ => rfl
  | cons a items ih =>
    intro before
    change ((f a >>= fun _ => items.forM f) before).2 = before
    rw [(hf a).effect_bind]
    cases (f a before).1.result with
    | error e => rfl
    | ok _ => exact ih before

/-! ## Actions that never fail -/

/-- The action has a value, whatever was done before. -/
def Succeeds (x : Action ε α) : Prop := ∀ before, ∃ a, (x before).1.result = .ok a

/-- To print never fails. -/
theorem succeeds_print (text : Text) : Succeeds (print text : Action ε Unit) := fun _ => ⟨(), rfl⟩

/-- To say something never fails. -/
theorem succeeds_say (level : LogLevel) (topic : LogTopic) (message : String) :
    Succeeds (look fun _ => Traced.say level topic message : Action ε Unit) := fun _ => ⟨(), rfl⟩

/-- What never fails may be followed by what never fails. -/
theorem Succeeds.bind (hx : Succeeds x) (hf : ∀ a, Succeeds (f a)) : Succeeds (x >>= f) := by
  intro before
  obtain ⟨a, ha⟩ := hx before
  obtain ⟨b, hb⟩ := hf a (x before).2
  exact ⟨b, by rw [result_bind, ha]; exact hb⟩

/-- What never fails may be done once for each of some things. -/
theorem succeeds_forM {f : α → Action ε Unit} (hf : ∀ a, Succeeds (f a)) (items : List α) :
    Succeeds (items.forM f) := by
  induction items with
  | nil => exact fun _ => ⟨(), rfl⟩
  | cons a items ih => exact (hf a).bind fun _ => ih

/-! ## Actions that are all or nothing -/

/-- If the action fails, what was done before is all that was done. -/
def AllOrNothing (x : Action ε α) : Prop :=
  ∀ before e, (x before).1.result = .error e → (x before).2 = before

/-- What only looks has done nothing in any case. -/
theorem Looks.allOrNothing (hx : Looks x) : AllOrNothing x := fun before _ _ => hx before

/-- What never fails has no failure to speak of. -/
theorem Succeeds.allOrNothing (hx : Succeeds x) : AllOrNothing x := by
  intro before e he
  obtain ⟨a, ha⟩ := hx before
  rw [ha] at he
  cases he

/-- One change is carried out or refused as a whole. -/
theorem allOrNothing_update (f : FileTree → Traced ε FileTree) : AllOrNothing (update f) := by
  intro before e he
  cases hresult : (f before.files).result with
  | ok files =>
    rw [(update_of_ok before hresult).1] at he
    cases he
  | error e' => exact (update_of_error before hresult).2

/-- In front of what is all or nothing there may be a step that only looks. -/
theorem Looks.bind_allOrNothing (hx : Looks x) (hf : ∀ a, AllOrNothing (f a)) : AllOrNothing (x >>= f) := by
  intro before e he
  rw [result_bind] at he
  rw [hx.effect_bind]
  rw [hx before] at he
  cases hresult : (x before).1.result with
  | error e' => rfl
  | ok a =>
    rw [hresult] at he
    exact hf a before e he

/-- Behind what is all or nothing there may be a step that never fails. -/
theorem AllOrNothing.bind_succeeds (hx : AllOrNothing x) (hf : ∀ a, Succeeds (f a)) : AllOrNothing (x >>= f) := by
  intro before e he
  rw [result_bind] at he
  rw [effect_bind]
  cases hresult : (x before).1.result with
  | error e' => exact hx before e' hresult
  | ok a =>
    rw [hresult] at he
    obtain ⟨b, hb⟩ := hf a (x before).2
    rw [Except.bind, hb] at he
    cases he

end Infill.Action
