import Schemata.Proofs.Pipeline.Engine

/-!
# Engines that are set up from a configuration

`of_config_ready` says what an engine is whose parser and producer are found: it has these, the
options of the configuration and no last error. Otherwise setting up fails with the reason why the
parser is not found, or else the producer.
-/

namespace Schemata

namespace Registry

variable {registry : Registry} {role : Role} {reference : Reference role}

theorem found_eq_ok_iff {plugin : Plugin role} :
    registry.found role reference = .ok plugin ↔
      ∃ made, (registry.resolve role reference).result = .ok made ∧ made.plugin = plugin := by
  unfold found
  cases (registry.resolve role reference).result with
  | error reason => simp [Except.map]
  | ok made => simp [Except.map]

theorem found_eq_error_iff {reason : PipelineError} :
    registry.found role reference = .error reason ↔
      (registry.resolve role reference).result = .error reason := by
  unfold found
  cases (registry.resolve role reference).result with
  | error other => simp [Except.map]
  | ok made => simp [Except.map]

end Registry

namespace Engine

/-- A new engine adds nothing to a registry. -/
theorem filled_start (registry : Registry) : registry.Filled (start registry).2 where
  factories role := by cases role <;> rfl
  aliases role := by cases role <;> rfl
  kept role name made hmade := by cases role <;> exact hmade
  made role name made hmade := by cases role <;> exact .inl hmade

section

variable {engine : Engine} {registry : Registry} {reason : PipelineError}

theorem set_parser_ok {reference : Reference .parser} {made : Instance Parser}
    (h : (registry.resolve .parser reference).result = .ok made) :
    engine.setParser registry reference =
      { engine := { engine with parser := made }
        registry := (registry.resolve .parser reference).registry
        journal := (registry.resolve .parser reference).journal
        result := .ok () } := by
  rw [setParser, h]

theorem set_parser_error {reference : Reference .parser}
    (h : (registry.resolve .parser reference).result = .error reason) :
    (engine.setParser registry reference).result = .error reason := by
  rw [setParser, h]

theorem set_producer_ok {reference : Reference .producer} {made : Instance Producer}
    (h : (registry.resolve .producer reference).result = .ok made) :
    engine.setProducer registry reference =
      { engine := { engine with producer := made }
        registry := (registry.resolve .producer reference).registry
        journal := (registry.resolve .producer reference).journal
        result := .ok () } := by
  rw [setProducer, h]

theorem set_producer_error {reference : Reference .producer}
    (h : (registry.resolve .producer reference).result = .error reason) :
    (engine.setProducer registry reference).result = .error reason := by
  rw [setProducer, h]

end

section

variable {registry : Registry} {config : EngineConfig} {reason : PipelineError}

theorem of_config_parser_refused
    (h : registry.found .parser (.named config.parser) = .error reason) :
    (ofConfig registry config).result = .error reason := by
  rw [← (filled_start registry).found_eq, Registry.found_eq_error_iff] at h
  simp only [ofConfig, Turn.andThen, set_parser_error h]

theorem of_config_producer_refused {parser : Parser}
    (hparser : registry.found .parser (.named config.parser) = .ok parser)
    (h : registry.found .producer (.named config.producer) = .error reason) :
    (ofConfig registry config).result = .error reason := by
  rw [← (filled_start registry).found_eq] at hparser h
  obtain ⟨made, hmade, -⟩ := Registry.found_eq_ok_iff.1 hparser
  rw [← (Registry.filled_resolve _ .parser (.named config.parser)).found_eq,
    Registry.found_eq_error_iff] at h
  simp only [ofConfig, Turn.andThen, set_parser_ok hmade, set_producer_error h]

/-- An engine whose plugins are found is ready with them and the options of its configuration. -/
theorem of_config_ready {parser : Parser} {producer : Producer}
    (hparser : registry.found .parser (.named config.parser) = .ok parser)
    (hproducer : registry.found .producer (.named config.producer) = .ok producer) :
    let turn := ofConfig registry config
    turn.result = .ok () ∧ turn.engine.parser.plugin = parser ∧
      turn.engine.producer.plugin = producer ∧ turn.engine.options = config.pluginOptions ∧
      turn.engine.lastError = "" := by
  rw [← (filled_start registry).found_eq] at hparser hproducer
  obtain ⟨parsing, hparsing, rfl⟩ := Registry.found_eq_ok_iff.1 hparser
  rw [← (Registry.filled_resolve _ .parser (.named config.parser)).found_eq] at hproducer
  obtain ⟨producing, hproducing, rfl⟩ := Registry.found_eq_ok_iff.1 hproducer
  simp only [ofConfig, Turn.andThen, set_parser_ok hparsing, set_producer_ok hproducing]
  exact ⟨trivial, trivial, trivial, trivial, rfl⟩

end

end Engine

end Schemata
