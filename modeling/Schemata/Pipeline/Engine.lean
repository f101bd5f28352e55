import Schemata.Pipeline.Config
import Schemata.Pipeline.Input

/-!
# The engine

An engine holds a parser, a producer, options and the last reported error. A translation parses the
text of its input and hands the result to the producer. Plugins that an input asks for stay in place
for later translations; its options do not. Reports of the plugins, and the advisory message of a
parsed schema, become the last error and do not stop the translation.
-/

namespace Schemata

/-- What a translation that did not fail comes to. -/
inductive Outcome where
  | produced (output : Representation)
  /-- The input had no text, and nothing was run. -/
  | noData
  deriving DecidableEq, Repr

/-- An engine. The registry that it looks plugins up in is shared and not part of it. -/
structure Engine where
  parser : Instance Parser
  producer : Instance Producer
  options : Options := {}
  lastError : String := ""

/-- What an operation on an engine leaves behind. -/
structure Turn (α : Type) where
  engine : Engine
  registry : Registry
  journal : Journal := []
  result : Except PipelineError α

namespace Turn

variable {α β : Type}

/-- Go on from where a turn ended, unless it failed. -/
def andThen (turn : Turn α) (next : Engine → Registry → α → Turn β) : Turn β :=
  match turn.result with
  | .error reason => { turn with result := .error reason }
  | .ok value =>
    let more := next turn.engine turn.registry value
    { more with journal := turn.journal ++ more.journal }

end Turn

namespace Engine

/-- An engine whose plugins pass on what they are given. -/
def start (registry : Registry) : Engine × Registry :=
  let (parser, registry) := registry.adopt identityParser
  let (producer, registry) := registry.adopt identityProducer
  ({ parser, producer }, registry)

/-- Find a parser and put it in place. -/
def setParser (engine : Engine) (registry : Registry) (reference : Reference .parser) : Turn Unit :=
  let answer := registry.resolve .parser reference
  match answer.result with
  | .error reason =>
    { engine, registry := answer.registry, journal := answer.journal, result := .error reason }
  | .ok parser =>
    { engine := { engine with parser }, registry := answer.registry, journal := answer.journal
      result := .ok () }

/-- Find a producer and put it in place. -/
def setProducer (engine : Engine) (registry : Registry) (reference : Reference .producer) :
    Turn Unit :=
  let answer := registry.resolve .producer reference
  match answer.result with
  | .error reason =>
    { engine, registry := answer.registry, journal := answer.journal, result := .error reason }
  | .ok producer =>
    { engine := { engine with producer }, registry := answer.registry, journal := answer.journal
      result := .ok () }

/-- Put in place what is asked for, if anything is. -/
def installWith {ρ : Type} (install : Engine → Registry → ρ → Turn Unit) (engine : Engine)
    (registry : Registry) : Option ρ → Turn Unit
  | none => { engine, registry, result := .ok () }
  | some reference => install engine registry reference

/-- Put the parser and then the producer in place that an input asks for. -/
def install (engine : Engine) (registry : Registry) (arguments : Arguments) : Turn Unit :=
  (installWith setParser engine registry arguments.parser).andThen fun engine registry _ =>
    installWith setProducer engine registry arguments.producer

/-- An engine set up from a configuration. What was looked up before a failure stays loaded in the
registry. -/
def ofConfig (registry : Registry) (config : EngineConfig) : Turn Unit :=
  let (engine, registry) := start registry
  ((engine.setParser registry (.named config.parser)).andThen fun engine registry _ =>
    engine.setProducer registry (.named config.producer)).andThen fun engine registry _ =>
      { engine := { engine with options := config.pluginOptions }, registry, result := .ok () }

/-- Make a message the last error. -/
def record (engine : Engine) (message : String) : Engine × Journal :=
  ({ engine with lastError := message }, [{ level := .warning, message }])

/-- Make a message the last error, if there is one. -/
def recordSome (engine : Engine) : Option String → Engine × Journal
  | none => (engine, [])
  | some message => engine.record message

/-- The advisory message of a representation, if it is a schema that has one. -/
def advisory? (representation : Representation) : Option String :=
  match representation.schema? with
  | none => none
  | some schema => if schema.error.isEmpty then none else some schema.error

/-- The entry for a translation that starts. -/
def translating (payload : String) : Event :=
  { level := .info
    message := "translating"
    fields := [("bytes", toString payload.utf8ByteSize)] }

/-- The entry for a parser that is done. -/
def parserFinished (representation : Representation) : Event :=
  { level := .debug, message := "parser finished", fields := [("ir", representation.kind)] }

/-- The entry for a producer that is done. -/
def producerFinished (representation : Representation) : Event :=
  { level := .debug, message := "producer finished", fields := [("output", representation.kind)] }

/-- Run the parser on a text. -/
def parse (engine : Engine) (registry : Registry) (options : Options) (payload : String) :
    Turn Representation :=
  let reply := engine.parser.plugin.parse payload { options }
  let (engine, reported) := engine.recordSome reply.report?
  let journal := translating payload :: (reply.journal ++ reported)
  match reply.result with
  | .error reason => { engine, registry, journal, result := .error reason }
  | .ok parsed =>
    let (engine, advised) := engine.recordSome (advisory? parsed)
    { engine, registry, journal := journal ++ advised ++ [parserFinished parsed]
      result := .ok parsed }

/-- Run the producer on what was parsed. -/
def produce (engine : Engine) (registry : Registry) (options : Options) (parsed : Representation) :
    Turn Outcome :=
  let reply := engine.producer.plugin.produce parsed { options }
  let (engine, reported) := engine.recordSome reply.report?
  let journal := reply.journal ++ reported
  match reply.result with
  | .error reason => { engine, registry, journal, result := .error reason }
  | .ok output =>
    { engine, registry, journal := journal ++ [producerFinished output]
      result := .ok (.produced output) }

/-- Translate a text under the options of the engine and of the call. -/
def run (engine : Engine) (registry : Registry) (options : Options) (payload : String) :
    Turn Outcome :=
  let all := engine.options.merge options
  (engine.parse registry all payload).andThen fun engine registry parsed =>
    engine.produce registry all parsed

/-- The entry for an input without a text. -/
def nothingToDo : Event :=
  { level := .warning, message := "no input data, nothing to translate" }

/-- Translate an input. -/
def translate (engine : Engine) (registry : Registry) (files : Files) (input : Input) :
    Turn Outcome :=
  match input.normalize files with
  | (journal, .error reason) => { engine, registry, journal, result := .error reason }
  | (journal, .ok { payload := none, .. }) =>
    { engine, registry, journal := journal ++ [nothingToDo], result := .ok .noData }
  | (journal, .ok { payload := some payload, arguments }) =>
    let turn := (engine.install registry arguments).andThen fun engine registry _ =>
      engine.run registry arguments.options payload
    { turn with journal := journal ++ turn.journal }

open Text (Outline)

/-- An engine as a diagnostic shows it; `routed` says whether its journal goes to a sink of its
own. -/
def outline (engine : Engine) (registry : Registry) (routed : Bool) : Outline :=
  .record "Translator"
    [("registry", registry.outline),
     ("options", engine.options.outline),
     ("last_error", .text engine.lastError),
     ("has_dispatch", .word (toString routed))] false

end Engine

end Schemata
