import Schemata.Pipeline.Engine
import Schemata.Proofs.Pipeline.Registry

/-!
# How a translation ends

A translation reads its input, puts the plugins in place that are asked for, and runs them; it can
end after each of these. `perform` is what running a parser and a producer comes to, apart from any
engine. `Exit` lists the ends with everything that a translation leaves behind, and
`translate_changes` says what each end may change.
-/

namespace Schemata

namespace Input

/-- The messages of the entries on reading an input. -/
def readMessages : List String :=
  ["drained input stream", "read input file"]

theorem to_arguments_message (input : Input) :
    ∀ event ∈ input.toArguments.1, event.message ∈ readMessages := by
  cases input with
  | text | buffer | path | arguments => simp [toArguments]
  | stream source =>
      unfold toArguments
      dsimp only
      split
      · simp
      · simp [drained, readMessages]

theorem load_message (files : Files) (given : Arguments) :
    ∀ event ∈ (load files given).1, event.message ∈ readMessages := by
  unfold load
  dsimp only
  split
  · simp
  · split <;> simp [fileRead, readMessages]
  · simp

theorem normalize_message (files : Files) (input : Input) :
    ∀ event ∈ (input.normalize files).1, event.message ∈ readMessages := by
  have hstream := input.to_arguments_message
  rcases harguments : input.toArguments with ⟨journal, reason | given⟩
  · simp only [normalize, harguments]
    rwa [harguments] at hstream
  · simp only [normalize, harguments, List.mem_append]
    rw [harguments] at hstream
    rintro event (hevent | hevent)
    · exact hstream event hevent
    · exact load_message files given event hevent

end Input

namespace Engine

/-- The entry for a message that becomes the last error, if there is one. -/
def recording : Option String → Journal
  | none => []
  | some message => [{ level := .warning, message }]

theorem record_some_eq (engine : Engine) (message? : Option String) :
    engine.recordSome message? =
      ({ engine with lastError := message?.getD engine.lastError }, recording message?) := by
  cases message? <;> rfl

/-- What running plugins on a text comes to. -/
structure Performance where
  result : Except PipelineError Outcome
  journal : Journal
  /-- The message that was recorded last, if any was. -/
  recorded? : Option String

/-- Run a parser on a text and a producer on what was parsed. The producer is not run when the parser
fails. -/
def perform (parser : Parser) (producer : Producer) (options : Options) (payload : String) :
    Performance :=
  let parsing := parser.parse payload { options }
  let journal := translating payload :: (parsing.journal ++ recording parsing.report?)
  match parsing.result with
  | .error reason => { result := .error reason, journal, recorded? := parsing.report? }
  | .ok parsed =>
    let producing := producer.produce parsed { options }
    let journal := journal ++ recording (advisory? parsed) ++ [parserFinished parsed] ++
      producing.journal ++ recording producing.report?
    let recorded? := producing.report?.or ((advisory? parsed).or parsing.report?)
    match producing.result with
    | .error reason => { result := .error reason, journal, recorded? }
    | .ok output =>
      { result := .ok (.produced output), journal := journal ++ [producerFinished output], recorded? }

section Performances

variable {parser : Parser} {producer : Producer} {options : Options} {payload : String}
  {parsed : Representation} {reason : PipelineError}

theorem perform_of_parser_error
    (hparsing : (parser.parse payload { options }).result = .error reason) :
    perform parser producer options payload =
      let parsing := parser.parse payload { options }
      { result := .error reason
        journal := translating payload :: (parsing.journal ++ recording parsing.report?)
        recorded? := parsing.report? } := by
  simp only [perform, hparsing]

theorem perform_of_producer_error
    (hparsing : (parser.parse payload { options }).result = .ok parsed)
    (hproducing : (producer.produce parsed { options }).result = .error reason) :
    perform parser producer options payload =
      let parsing := parser.parse payload { options }
      let producing := producer.produce parsed { options }
      { result := .error reason
        journal := translating payload :: (parsing.journal ++ recording parsing.report?) ++
          recording (advisory? parsed) ++ [parserFinished parsed] ++
          producing.journal ++ recording producing.report?
        recorded? := producing.report?.or ((advisory? parsed).or parsing.report?) } := by
  simp only [perform, hparsing, hproducing]

end Performances

/-- Running the plugins of an engine changes its last error at most. -/
theorem run_eq (engine : Engine) (registry : Registry) (options : Options) (payload : String) :
    engine.run registry options payload =
      let performance := perform engine.parser.plugin engine.producer.plugin
        (engine.options.merge options) payload
      { engine := { engine with
          lastError := performance.recorded?.getD engine.lastError }
        registry
        journal := performance.journal
        result := performance.result } := by
  unfold run parse perform
  simp only [record_some_eq]
  cases hparsing :
      (engine.parser.plugin.parse payload { options := engine.options.merge options }).result with
  | error reason => simp [Turn.andThen]
  | ok parsed =>
      simp only [Turn.andThen, produce, record_some_eq]
      -- of the messages the last one stands, so the producer's comes before the others
      cases (engine.producer.plugin.produce parsed
          { options := engine.options.merge options }).result with
      | error reason => simp [Option.getD_or]
      | ok output => simp [Option.getD_or]

theorem install_parser_eq (engine : Engine) (registry : Registry)
    (reference? : Option (Reference .parser)) :
    installWith setParser engine registry reference? =
      let answer := registry.choose .parser engine.parser reference?
      { engine := match answer.result with
          | .error _ => engine
          | .ok parser => { engine with parser }
        registry := answer.registry
        journal := answer.journal
        result := answer.result.map fun _ => () } := by
  cases reference? with
  | none => rfl
  | some reference =>
      simp only [installWith, setParser, Registry.choose]
      cases (registry.resolve .parser reference).result <;> rfl

theorem install_producer_eq (engine : Engine) (registry : Registry)
    (reference? : Option (Reference .producer)) :
    installWith setProducer engine registry reference? =
      let answer := registry.choose .producer engine.producer reference?
      { engine := match answer.result with
          | .error _ => engine
          | .ok producer => { engine with producer }
        registry := answer.registry
        journal := answer.journal
        result := answer.result.map fun _ => () } := by
  cases reference? with
  | none => rfl
  | some reference =>
      simp only [installWith, setProducer, Registry.choose]
      cases (registry.resolve .producer reference).result <;> rfl

section Exits

variable {engine : Engine} {registry : Registry} {files : Files} {input : Input}
  {journal : Journal} {payload : String} {arguments : Arguments} {reason : PipelineError}
  {parsers : Registry.Answer .parser} {producers : Registry.Answer .producer}
  {parser : Instance Parser} {producer : Instance Producer}

theorem translate_unread (hread : input.normalize files = (journal, .error reason)) :
    engine.translate registry files input =
      { engine, registry, journal, result := .error reason } := by
  simp only [translate, hread]

theorem translate_empty
    (hread : input.normalize files = (journal, .ok { payload := none, arguments })) :
    engine.translate registry files input =
      { engine, registry, journal := journal ++ [nothingToDo], result := .ok .noData } := by
  simp only [translate, hread]

theorem translate_parser_refused
    (hread : input.normalize files = (journal, .ok { payload := some payload, arguments }))
    (hparsers : registry.choose .parser engine.parser arguments.parser = parsers)
    (hparser : parsers.result = .error reason) :
    engine.translate registry files input =
      { engine, registry, journal := journal ++ parsers.journal, result := .error reason } := by
  subst hparsers
  simp [translate, hread, install, install_parser_eq, Turn.andThen, hparser, Except.map,
    Registry.choose_refused rfl hparser]

theorem translate_producer_refused
    (hread : input.normalize files = (journal, .ok { payload := some payload, arguments }))
    (hparsers : registry.choose .parser engine.parser arguments.parser = parsers)
    (hparser : parsers.result = .ok parser)
    (hproducers : parsers.registry.choose .producer engine.producer arguments.producer = producers)
    (hproducer : producers.result = .error reason) :
    engine.translate registry files input =
      { engine := { engine with parser }
        registry := parsers.registry
        journal := journal ++ parsers.journal ++ producers.journal
        result := .error reason } := by
  subst hparsers hproducers
  simp [translate, hread, install, install_parser_eq, install_producer_eq, Turn.andThen, hparser,
    hproducer, Except.map, Registry.choose_refused rfl hproducer]

theorem translate_performed
    (hread : input.normalize files = (journal, .ok { payload := some payload, arguments }))
    (hparsers : registry.choose .parser engine.parser arguments.parser = parsers)
    (hparser : parsers.result = .ok parser)
    (hproducers : parsers.registry.choose .producer engine.producer arguments.producer = producers)
    (hproducer : producers.result = .ok producer) :
    engine.translate registry files input =
      let performance := perform parser.plugin producer.plugin
        (engine.options.merge arguments.options) payload
      { engine := { engine with
          parser
          producer
          lastError := performance.recorded?.getD engine.lastError }
        registry := producers.registry
        journal := journal ++ parsers.journal ++ producers.journal ++ performance.journal
        result := performance.result } := by
  subst hparsers hproducers
  simp [translate, hread, install, install_parser_eq, install_producer_eq, Turn.andThen, hparser,
    hproducer, Except.map, run_eq]

end Exits

/-- The ways in which a translation ends, with all that it leaves behind. -/
inductive Exit (engine : Engine) (registry : Registry) (files : Files) (input : Input) :
    Turn Outcome → Prop where
  | unread {journal : Journal} {reason : PipelineError}
      (hread : input.normalize files = (journal, .error reason)) :
      Exit engine registry files input { engine, registry, journal, result := .error reason }
  | empty {journal : Journal} {arguments : Arguments}
      (hread : input.normalize files = (journal, .ok { payload := none, arguments })) :
      Exit engine registry files input
        { engine, registry, journal := journal ++ [nothingToDo], result := .ok .noData }
  | noParser {journal : Journal} {payload : String} {arguments : Arguments}
      {parsers : Registry.Answer .parser} {reason : PipelineError}
      (hread : input.normalize files = (journal, .ok { payload := some payload, arguments }))
      (hparsers : registry.choose .parser engine.parser arguments.parser = parsers)
      (hparser : parsers.result = .error reason) :
      Exit engine registry files input
        { engine, registry, journal := journal ++ parsers.journal, result := .error reason }
  | noProducer {journal : Journal} {payload : String} {arguments : Arguments}
      {parsers : Registry.Answer .parser} {parser : Instance Parser}
      {producers : Registry.Answer .producer} {reason : PipelineError}
      (hread : input.normalize files = (journal, .ok { payload := some payload, arguments }))
      (hparsers : registry.choose .parser engine.parser arguments.parser = parsers)
      (hparser : parsers.result = .ok parser)
      (hproducers : parsers.registry.choose .producer engine.producer arguments.producer = producers)
      (hproducer : producers.result = .error reason) :
      Exit engine registry files input
        { engine := { engine with parser }
          registry := parsers.registry
          journal := journal ++ parsers.journal ++ producers.journal
          result := .error reason }
  | performed {journal : Journal} {payload : String} {arguments : Arguments}
      {parsers : Registry.Answer .parser} {parser : Instance Parser}
      {producers : Registry.Answer .producer} {producer : Instance Producer}
      {performance : Performance}
      (hread : input.normalize files = (journal, .ok { payload := some payload, arguments }))
      (hparsers : registry.choose .parser engine.parser arguments.parser = parsers)
      (hparser : parsers.result = .ok parser)
      (hproducers : parsers.registry.choose .producer engine.producer arguments.producer = producers)
      (hproducer : producers.result = .ok producer)
      (hperform : perform parser.plugin producer.plugin (engine.options.merge arguments.options)
        payload = performance) :
      Exit engine registry files input
        { engine := { engine with
            parser
            producer
            lastError := performance.recorded?.getD engine.lastError }
          registry := producers.registry
          journal := journal ++ parsers.journal ++ producers.journal ++ performance.journal
          result := performance.result }

theorem translate_exit (engine : Engine) (registry : Registry) (files : Files) (input : Input) :
    Exit engine registry files input (engine.translate registry files input) := by
  rcases hread : input.normalize files with ⟨journal, reason | ⟨_ | payload, arguments⟩⟩
  · rw [translate_unread hread]
    exact .unread hread
  · rw [translate_empty hread]
    exact .empty hread
  · cases hparser : (registry.choose .parser engine.parser arguments.parser).result with
    | error reason =>
        rw [translate_parser_refused hread rfl hparser]
        exact .noParser hread rfl hparser
    | ok parser =>
        cases hproducer : ((registry.choose .parser engine.parser arguments.parser).registry.choose
            .producer engine.producer arguments.producer).result with
        | error reason =>
            rw [translate_producer_refused hread rfl hparser rfl hproducer]
            exact .noProducer hread rfl hparser rfl hproducer
        | ok producer =>
            rw [translate_performed hread rfl hparser rfl hproducer]
            exact .performed hread rfl hparser rfl hproducer rfl

section Kept

variable {engine : Engine} {registry : Registry} {files : Files} {input : Input}
  {turn : Turn Outcome} {text : String}

theorem Exit.options_eq (h : Exit engine registry files input turn) :
    turn.engine.options = engine.options := by
  cases h <;> rfl

/-- A translation changes a registry only by instances that its factories make. -/
theorem Exit.filled (h : Exit engine registry files input turn) :
    registry.Filled turn.registry := by
  cases h with
  | unread | empty | noParser => exact .refl registry
  | noProducer hread hparsers => exact Registry.filled_choose hparsers
  | performed hread hparsers hparser hproducers =>
      exact (Registry.filled_choose hparsers).trans (Registry.filled_choose hproducers)

theorem translating_not_mem_normalize : translating text ∉ (input.normalize files).1 := fun h =>
  absurd (input.normalize_message files _ h) (by simp [translating, Input.readMessages])

theorem translating_not_mem_choose {role : Role} {current : Instance (Plugin role)}
    {reference? : Option (Reference role)} :
    translating text ∉ (registry.choose role current reference?).journal := fun h =>
  absurd (registry.choose_message role current reference? _ h)
    (by simp [translating, Registry.searchMessages])

/-- A translation that starts to run plugins has found all that its input asks for. -/
theorem Exit.found_of_translating (h : Exit engine registry files input turn)
    (hstart : translating text ∈ turn.journal) :
    ∃ payload arguments,
      (input.normalize files).2 = .ok { payload := some payload, arguments } ∧
      let parsers := registry.choose .parser engine.parser arguments.parser
      let producers := parsers.registry.choose .producer engine.producer arguments.producer
      (∃ parser, parsers.result = .ok parser) ∧ ∃ producer, producers.result = .ok producer := by
  have hnormalize := @translating_not_mem_normalize files input text
  cases h with
  | unread hread =>
      rw [hread] at hnormalize
      exact absurd hstart hnormalize
  | empty hread =>
      rw [hread] at hnormalize
      rcases List.mem_append.1 hstart with hreading | hempty
      · exact absurd hreading hnormalize
      · exact absurd (List.mem_singleton.1 hempty) (by simp [translating, nothingToDo])
  | noParser hread hparsers =>
      rw [hread] at hnormalize
      subst hparsers
      rcases List.mem_append.1 hstart with hreading | hsearch
      · exact absurd hreading hnormalize
      · exact absurd hsearch translating_not_mem_choose
  | noProducer hread hparsers hparser hproducers =>
      rw [hread] at hnormalize
      subst hparsers hproducers
      rcases List.mem_append.1 hstart with hfirst | hsearch
      · rcases List.mem_append.1 hfirst with hreading | hsearch
        · exact absurd hreading hnormalize
        · exact absurd hsearch translating_not_mem_choose
      · exact absurd hsearch translating_not_mem_choose
  | performed hread hparsers hparser hproducers hproducer =>
      subst hparsers hproducers
      exact ⟨_, _, by rw [hread], ⟨_, hparser⟩, ⟨_, hproducer⟩⟩

end Kept

/-- What a translation changes, end by end. Nothing changes when the input cannot be read or has no
text, or when the parser that is asked for is not found; the journal then has entries on the input
and on the search and none of a plugin. When the producer that is asked for is not found, the parser
is in place and nothing else differs. When the plugins are run, the ones that were asked for are in
place, and besides them only the last error differs. What is recorded there when a plugin fails is
what was reported, or the advisory message of what was parsed when it is the producer that fails.
On all ways the options stay, and so do factories and aliases, and a journal that tells of a start
is one of a translation that found its plugins. -/
theorem translate_changes (engine : Engine) (registry : Registry) (files : Files) (input : Input) :
    let turn := engine.translate registry files input
    let read := input.normalize files
    turn.engine.options = engine.options ∧ registry.Filled turn.registry ∧
      (∀ text, translating text ∈ turn.journal → ∃ payload arguments,
        read.2 = .ok { payload := some payload, arguments } ∧
        let parsers := registry.choose .parser engine.parser arguments.parser
        let producers := parsers.registry.choose .producer engine.producer arguments.producer
        (∃ parser, parsers.result = .ok parser) ∧ ∃ producer, producers.result = .ok producer) ∧
      (∀ reason, read.2 = .error reason →
        turn = { engine, registry, journal := read.1, result := .error reason }) ∧
      (∀ arguments, read.2 = .ok { payload := none, arguments } →
        turn = { engine, registry, journal := read.1 ++ [nothingToDo], result := .ok .noData }) ∧
      ∀ payload arguments, read.2 = .ok { payload := some payload, arguments } →
        let parsers := registry.choose .parser engine.parser arguments.parser
        (∀ reason, parsers.result = .error reason →
          turn =
            { engine, registry, journal := read.1 ++ parsers.journal, result := .error reason }) ∧
        ∀ parser : Instance Parser, parsers.result = .ok parser →
          let producers := parsers.registry.choose .producer engine.producer arguments.producer
          (∀ reason, producers.result = .error reason →
            turn =
              { engine := { engine with parser }
                registry := parsers.registry
                journal := read.1 ++ parsers.journal ++ producers.journal
                result := .error reason }) ∧
          ∀ producer : Instance Producer, producers.result = .ok producer →
            let context : Context := { options := engine.options.merge arguments.options }
            let parsing := parser.plugin.parse payload context
            let performance := perform parser.plugin producer.plugin context.options payload
            turn =
              { engine := { engine with
                  parser
                  producer
                  lastError := performance.recorded?.getD engine.lastError }
                registry := producers.registry
                journal := read.1 ++ parsers.journal ++ producers.journal ++ performance.journal
                result := performance.result } ∧
            (∀ reason, parsing.result = .error reason →
              performance.result = .error reason ∧ performance.recorded? = parsing.report?) ∧
            ∀ parsed reason, parsing.result = .ok parsed →
              let producing := producer.plugin.produce parsed context
              producing.result = .error reason →
                performance.result = .error reason ∧
                performance.recorded? =
                  producing.report?.or ((advisory? parsed).or parsing.report?) := by
  intro turn read
  have hexit : Exit engine registry files input turn := translate_exit engine registry files input
  refine ⟨hexit.options_eq, hexit.filled, fun text => hexit.found_of_translating,
    fun reason hread => translate_unread (Prod.ext rfl hread),
    fun arguments hread => translate_empty (Prod.ext rfl hread), ?_⟩
  intro payload arguments hpayload parsers
  have hread : input.normalize files = (read.1, .ok { payload := some payload, arguments }) :=
    Prod.ext rfl hpayload
  refine ⟨fun reason hparser => translate_parser_refused hread rfl hparser, ?_⟩
  intro parser hparser producers
  refine ⟨fun reason hproducer => translate_producer_refused hread rfl hparser rfl hproducer, ?_⟩
  intro producer hproducer context parsing performance
  refine ⟨translate_performed hread rfl hparser rfl hproducer, ?_, ?_⟩
  · intro reason hparsing
    have hperformance : performance = _ := perform_of_parser_error hparsing
    rw [hperformance]
    exact ⟨rfl, rfl⟩
  · intro parsed reason hparsing producing hproducing
    have hperformance : performance = _ := perform_of_producer_error hparsing hproducing
    rw [hperformance]
    exact ⟨rfl, rfl⟩

end Engine

end Schemata
