import Infill.Files.Tree
import Infill.Log

/-!
# Actions

What a command does step by step: it looks at the files, changes them, prints and logs, and any step may
fail.  What was printed and changed by then stays printed and changed.
-/

set_option autoImplicit false

namespace Infill

/-- What has been done so far: the text that was printed, and the files as they are now. -/
structure Effect where
  output : Text
  files : FileTree
  deriving DecidableEq, Repr

/-- A computation that may print and change files.  It starts from what was done before, and what is done
when it ends stands beside its result, be that a value or an error. -/
def Action (ε α : Type) : Type := Effect → Traced ε α × Effect

namespace Action

variable {ε α β : Type}

/-- Looks at the files. -/
def look (f : FileTree → Traced ε α) : Action ε α := fun before => (f before.files, before)

/-- Makes one change to the files, which the system carries out or refuses as a whole. -/
def update (f : FileTree → Traced ε FileTree) : Action ε Unit := fun before =>
  match f before.files with
  | ⟨.ok files, log⟩ => (⟨.ok (), log⟩, { before with files := files })
  | ⟨.error e, log⟩ => (⟨.error e, log⟩, before)

/-- Prints a text behind all that was printed before. -/
def print (text : Text) : Action ε Unit := fun before =>
  (pure (), { before with output := before.output ++ text })

/-- One action after another: the second starts from what the first has done, if that succeeds. -/
def andThen (x : Action ε α) (f : α → Action ε β) : Action ε β := fun before =>
  match x before with
  | (⟨.ok a, log⟩, after) =>
    let (rest, last) := f a after
    (⟨rest.result, log ++ rest.log⟩, last)
  | (⟨.error e, log⟩, after) => (⟨.error e, log⟩, after)

instance : Monad (Action ε) where
  pure a := fun before => (pure a, before)
  bind := andThen

section Bind

variable {x : Action ε α} {before : Effect}

/-- Behind an action that succeeds the next one starts from what is done then. -/
theorem bind_of_ok {a : α} (f : α → Action ε β) (h : (x before).1.result = .ok a) :
    (x >>= f) before =
      (⟨(f a (x before).2).1.result, (x before).1.log ++ (f a (x before).2).1.log⟩, (f a (x before).2).2) := by
  change andThen x f before = _
  unfold andThen
  generalize x before = done at h ⊢
  obtain ⟨⟨result, log⟩, after⟩ := done
  obtain rfl : result = .ok a := h
  rfl

/-- An action that fails is the last one. -/
theorem bind_of_error {e : ε} (f : α → Action ε β) (h : (x before).1.result = .error e) :
    (x >>= f) before = (⟨.error e, (x before).1.log⟩, (x before).2) := by
  change andThen x f before = _
  unfold andThen
  generalize x before = done at h ⊢
  obtain ⟨⟨result, log⟩, after⟩ := done
  obtain rfl : result = .error e := h
  rfl

end Bind

/-- The second action gives the result, if the first one does not fail. -/
@[simp] theorem result_bind (x : Action ε α) (f : α → Action ε β) (before : Effect) :
    ((x >>= f) before).1.result =
      (x before).1.result.bind fun a => (f a (x before).2).1.result := by
  cases h : (x before).1.result with
  | ok a => rw [bind_of_ok f h]; rfl
  | error e => rw [bind_of_error f h]; rfl

/-- What is done in the end: what the first action has done if it fails, and else what the second has done
from there. -/
theorem effect_bind (x : Action ε α) (f : α → Action ε β) (before : Effect) :
    ((x >>= f) before).2 =
      match (x before).1.result with
      | .ok a => (f a (x before).2).2
      | .error _ => (x before).2 := by
  cases h : (x before).1.result with
  | ok a => rw [bind_of_ok f h]
  | error e => rw [bind_of_error f h]

end Action
end Infill
