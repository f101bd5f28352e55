/-!
# Journals

A journal is the list of events that a run emits, oldest first. `Progress` is what a journalled run
leaves behind: how far it came, its journal, and the failure that ended it, if any did. A failure
stops the run and takes nothing back.
-/

namespace Schemata

/-- How much an event matters, least first. -/
inductive Level where
  | trace
  | debug
  | info
  | warning
  | failure
  deriving DecidableEq, Repr

/-- One entry of a journal: a message together with the named texts that travel with it. -/
structure Event where
  level : Level
  message : String
  fields : List (String × String) := []
  deriving DecidableEq, Repr

/-- Events, oldest first. -/
abbrev Journal := List Event

/-- What a journalled run leaves behind. -/
structure Progress (ε α : Type) where
  value : α
  journal : Journal := []
  failure : Option ε := none

namespace Progress

variable {ε α β : Type}

/-- A run that does nothing. -/
def pure (value : α) : Progress ε α := { value }

/-- A run that stops at once and leaves `value` as it was. -/
def fail (value : α) (reason : ε) : Progress ε α := { value, failure := some reason }

/-- A run that reaches `value` and emits one event. -/
def step (value : α) (event : Event) : Progress ε α := { value, journal := [event] }

/-- Go on from where `run` ended, unless it failed. -/
def andThen (run : Progress ε α) (next : α → Progress ε α) : Progress ε α :=
  match run.failure with
  | some _ => run
  | none =>
    let more := next run.value
    { more with journal := run.journal ++ more.journal }

/-- Emit one more event, unless the run failed. -/
def emit (run : Progress ε α) (event : α → Event) : Progress ε α :=
  run.andThen fun value => step value (event value)

/-- See the value that was reached as a part of a larger one. -/
def map (f : α → β) (run : Progress ε α) : Progress ε β :=
  { value := f run.value, journal := run.journal, failure := run.failure }

/-- Run through the items in order, up to the first failure. -/
def through (next : α → β → Progress ε α) : α → List β → Progress ε α
  | value, [] => pure value
  | value, item :: rest => (next value item).andThen fun reached => through next reached rest

/-- The value of a run that did not fail. -/
def result (run : Progress ε α) : Except ε α :=
  match run.failure with
  | some reason => .error reason
  | none => .ok run.value

@[simp] theorem andThen_of_failure {run : Progress ε α} {next : α → Progress ε α} {reason : ε}
    (h : run.failure = some reason) : run.andThen next = run := by
  simp [andThen, h]

@[simp] theorem andThen_of_none {run : Progress ε α} {next : α → Progress ε α}
    (h : run.failure = none) :
    run.andThen next =
      { next run.value with journal := run.journal ++ (next run.value).journal } := by
  simp [andThen, h]

@[simp] theorem pure_andThen (value : α) (next : α → Progress ε α) :
    (pure value).andThen next = next value := by
  simp [pure]

theorem result_eq_ok_iff {run : Progress ε α} {value : α} :
    run.result = .ok value ↔ run.failure = none ∧ run.value = value := by
  unfold result
  cases run.failure <;> simp

end Progress

end Schemata
