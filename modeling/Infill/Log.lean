import Infill.Text.Quoted

/-!
# Log events

What a computation has to say besides its result.  An event has a level, the topic it belongs to and
a message; a `Traced` computation keeps the events said before it failed.
-/

set_option autoImplicit false

namespace Infill

/-- How much an event matters, most first. -/
inductive LogLevel where
  | error
  | warn
  | info
  | debug
  | trace
  deriving DecidableEq, Repr

namespace LogLevel

/-- The level's rank: the more an event matters, the lower. -/
def rank : LogLevel → Nat
  | error => 1
  | warn => 2
  | info => 3
  | debug => 4
  | trace => 5

/-- The name of a level, as it stands in a line. -/
def name : LogLevel → String
  | error => "ERROR"
  | warn => "WARN"
  | info => "INFO"
  | debug => "DEBUG"
  | trace => "TRACE"

end LogLevel

/-- The part of the program that an event comes from. -/
inductive LogTopic where
  | application
  | commands
  | compiler
  | layout
  | documents
  | files
  deriving DecidableEq, Repr

/-- A message, with how much it matters and what it is about. -/
structure LogEvent where
  level : LogLevel
  topic : LogTopic
  message : String
  deriving DecidableEq, Repr

/-- The line that tells an event. -/
def LogEvent.line (e : LogEvent) : String :=
  e.level.name ++ " " ++ (Text.logged e.message.toList).asString

/-- A computation that may fail, with what it said on the way. -/
structure Traced (ε α : Type) where
  result : Except ε α
  log : List LogEvent

namespace Traced

variable {ε ε' α β : Type}

/-- Tells a message and goes on. -/
def say (level : LogLevel) (topic : LogTopic) (message : String) : Traced ε Unit :=
  ⟨.ok (), [⟨level, topic, message⟩]⟩

/-- A result that nothing is told about. -/
def ofExcept (result : Except ε α) : Traced ε α := ⟨result, []⟩

/-- An error that nothing is told about. -/
def fail (e : ε) : Traced ε α := ⟨.error e, []⟩

/-- One computation after another: the second runs only if the first succeeds. -/
def andThen (x : Traced ε α) (f : α → Traced ε β) : Traced ε β :=
  match x.result with
  | .ok a => ⟨(f a).result, x.log ++ (f a).log⟩
  | .error e => ⟨.error e, x.log⟩

instance : Monad (Traced ε) where
  pure a := ⟨.ok a, []⟩
  bind := andThen

/-- The same computation with its error put in other words. -/
def mapError (f : ε → ε') (x : Traced ε α) : Traced ε' α := ⟨x.result.mapError f, x.log⟩

/-- Going on with a value gives the value. -/
@[simp] theorem result_pure (a : α) : (pure a : Traced ε α).result = .ok a := rfl

/-- The second step goes on from the result of the first. -/
@[simp] theorem result_bind (x : Traced ε α) (f : α → Traced ε β) :
    (x >>= f).result = x.result.bind fun a => (f a).result := by
  show (andThen x f).result = _
  unfold andThen
  cases x.result <;> rfl

/-- An error is put in other words, and nothing else changes. -/
@[simp] theorem result_mapError (f : ε → ε') (x : Traced ε α) :
    (x.mapError f).result = x.result.mapError f := rfl

/-- Telling a message does not fail. -/
@[simp] theorem result_say (level : LogLevel) (topic : LogTopic) (message : String) :
    (say level topic message : Traced ε Unit).result = .ok () := rfl

/-- The result is the one that was given. -/
@[simp] theorem result_ofExcept (r : Except ε α) : (ofExcept r).result = r := rfl

/-- The error is the one that was given. -/
@[simp] theorem result_fail (e : ε) : (fail e : Traced ε α).result = .error e := rfl

end Traced
end Infill
