import Schemata.Proofs.Pipeline.Inputs
import Schemata.Proofs.Pipeline.Options
import Schemata.Proofs.Pipeline.Setup

/-!
# Settings of an engine and settings of a job

Plugins and options can be settled for an engine or come with a job. Every step of a translation
commutes with a change of the options that the engine keeps, as long as the two layers of options put
together stay the same. The main statement, `set_up_or_asked`, is that it does not matter on which of
the layers a setting stands: a turn leaves the same behind, but for the options that its engine keeps.
-/

namespace Schemata

/-- The same turn, of an engine that keeps other options. -/
def Turn.keeping {α : Type} (turn : Turn α) (options : Options) : Turn α :=
  { turn with engine := { turn.engine with options } }

/-- Arguments that ask for what a configuration settles, beside a text. -/
def EngineConfig.arguments (config : EngineConfig) (text : String) : Arguments where
  data := some text
  parser := some (.named config.parser)
  producer := some (.named config.producer)
  options := config.pluginOptions

namespace Input

/-- What is read does not depend on the options, which are passed on. -/
theorem normalize_options (files : Files) (given : Arguments) (options : Options) :
    (arguments { given with options }).normalize files =
      (((arguments given).normalize files).1,
        ((arguments given).normalize files).2.map fun read =>
          { read with arguments := { read.arguments with options } }) := by
  rcases given with ⟨_ | content, _ | file, parser, producer, held⟩
  · rfl
  · simp only [normalize, toArguments, load]
    cases files.readText file <;> rfl
  · rfl
  · rfl

end Input

namespace Engine

/-- The same engine, with other options. -/
def keeping (engine : Engine) (options : Options) : Engine :=
  { engine with options }

section Turns

variable {α β : Type} {turn : Turn α} {options : Options}

theorem and_then_assoc {γ : Type} (turn : Turn α) (next : Engine → Registry → α → Turn β)
    (more : Engine → Registry → β → Turn γ) :
    (turn.andThen next).andThen more =
      turn.andThen fun engine registry value => (next engine registry value).andThen more := by
  cases hturn : turn.result with
  | error reason => simp [Turn.andThen, hturn]
  | ok value =>
      cases hnext : (next turn.engine turn.registry value).result <;>
        simp [Turn.andThen, hturn, hnext]

/-- Going on commutes with a change of options if what comes next does. -/
theorem and_then_keeping {next other : Engine → Registry → α → Turn β}
    (h : ∀ value, other (turn.engine.keeping options) turn.registry value =
      (next turn.engine turn.registry value).keeping options) :
    (turn.keeping options).andThen other = (turn.andThen next).keeping options := by
  cases hresult : turn.result with
  | error reason => simp [Turn.andThen, Turn.keeping, hresult]
  | ok value =>
      have hnext := h value
      simp only [keeping] at hnext
      simp [Turn.andThen, Turn.keeping, hresult, hnext]

end Turns

section Steps

variable (engine : Engine) (registry : Registry)

theorem install_parser_keeping (options : Options) (reference? : Option (Reference .parser)) :
    installWith setParser (engine.keeping options) registry reference? =
      (installWith setParser engine registry reference?).keeping options := by
  rw [install_parser_eq, install_parser_eq]
  cases hresult : (registry.choose .parser engine.parser reference?).result <;>
    simp [keeping, Turn.keeping, hresult]

theorem install_producer_keeping (options : Options) (reference? : Option (Reference .producer)) :
    installWith setProducer (engine.keeping options) registry reference? =
      (installWith setProducer engine registry reference?).keeping options := by
  rw [install_producer_eq, install_producer_eq]
  cases hresult : (registry.choose .producer engine.producer reference?).result <;>
    simp [keeping, Turn.keeping, hresult]

/-- Which plugins are put in place does not depend on options. -/
theorem install_keeping (options : Options) (arguments : Arguments) :
    (engine.keeping options).install registry arguments =
      (engine.install registry arguments).keeping options := by
  rw [install, install_parser_keeping]
  exact and_then_keeping fun _ => install_producer_keeping _ _ options arguments.producer

/-- Options of the engine below those of a call make the same as both layers in the call. -/
theorem run_keeping (own call : Options) (payload : String) :
    (engine.keeping own).run registry call payload =
      ((engine.keeping {}).run registry (own.merge call) payload).keeping own := by
  rw [run_eq, run_eq]
  simp only [keeping, Turn.keeping, Options.empty_merge]

/-- A text is translated by putting the plugins in place and running them. -/
theorem translate_loaded {engine : Engine} {registry : Registry} {files : Files} {input : Input}
    {journal : Journal} {payload : String} {arguments : Arguments}
    (hread : input.normalize files = (journal, .ok { payload := some payload, arguments })) :
    engine.translate registry files input =
      ((engine.install registry arguments).andThen fun engine registry _ =>
        engine.run registry arguments.options payload).behind journal := by
  simp only [translate, hread, Turn.behind]

theorem translate_text (files : Files) (text : String) :
    engine.translate registry files (.text text) = engine.run registry {} text := rfl

/-- Options of the engine below those of a job make the same as both layers in the job. -/
theorem translate_keeping (files : Files) (own : Options) (given : Arguments) :
    (engine.keeping own).translate registry files (.arguments given) =
      ((engine.keeping {}).translate registry files
        (.arguments { given with options := own.merge given.options })).keeping own := by
  have hown : (Input.arguments given).normalize files = _ :=
    Input.normalize_options files { given with options := {} } given.options
  have hboth : (Input.arguments { given with options := own.merge given.options }).normalize files =
      _ := Input.normalize_options files { given with options := {} } (own.merge given.options)
  rcases hread : (Input.arguments { given with options := {} }).normalize files with
    ⟨journal, reason | ⟨_ | payload, arguments⟩⟩ <;>
    rw [hread] at hown hboth
  · rw [translate_unread hown, translate_unread hboth]
    rfl
  · rw [translate_empty hown, translate_empty hboth]
    rfl
  · have hturn : ((engine.keeping own).install registry arguments).andThen
          (fun engine registry _ => engine.run registry given.options payload) =
        (((engine.keeping {}).install registry arguments).andThen
          fun engine registry _ => engine.run registry (own.merge given.options) payload).keeping
            own := by
      rw [install_keeping, install_keeping]
      exact @and_then_keeping _ _ ((engine.install registry arguments).keeping {}) own _ _
        fun _ => run_keeping _ _ own given.options payload
    rw [translate_loaded hown, translate_loaded hboth]
    exact congrArg (Turn.behind · journal) hturn

end Steps

/-- Setting up an engine puts the same plugins in place as the first job of a new engine that asks for
them, in the same order. -/
theorem translate_arguments (registry : Registry) (files : Files) (config : EngineConfig)
    (text : String) :
    let fresh := start registry
    fresh.1.translate fresh.2 files (.arguments (config.arguments text)) =
      ((ofConfig registry config).andThen fun engine registry _ =>
        engine.translate registry files (.text text)).keeping {} := by
  intro fresh
  let given := config.arguments text
  have hset : ofConfig registry config = (fresh.1.install fresh.2 given).andThen
      fun engine registry _ =>
        { engine := engine.keeping config.pluginOptions, registry, result := .ok () } := rfl
  have hasked : fresh.1.translate fresh.2 files (.arguments given) =
      (fresh.1.install fresh.2 given).andThen fun engine registry _ =>
        engine.run registry config.pluginOptions text := rfl
  have hfresh : fresh.1.install fresh.2 given = (fresh.1.install fresh.2 given).keeping {} :=
    install_keeping fresh.1 fresh.2 {} given
  have hnext (engine : Engine) (registry : Registry) :
      (engine.keeping {}).run registry config.pluginOptions text =
        ((engine.keeping config.pluginOptions).translate registry files (.text text)).keeping {} := by
    rw [translate_text, run_keeping engine registry config.pluginOptions, Options.merge_empty, run_eq]
    rfl
  rw [hasked, hset, and_then_assoc]
  exact (congrArg (Turn.andThen · _) hfresh).trans (and_then_keeping fun _ => hnext _ _)

/-- It does not matter on which layer settings stand. An engine that is set up from a configuration
and given a text comes to the same as a new engine that is given the text together with the plugins
and the options of the configuration, the refusal of a plugin included. An engine with options of its
own comes to the same as one without them whose jobs have both layers of options put together. In both
cases the turns leave the same behind, but for the options that the engine keeps. -/
theorem set_up_or_asked (registry : Registry) (files : Files) :
    (∀ (config : EngineConfig) (text : String),
      let configured := (ofConfig registry config).andThen fun engine registry _ =>
        engine.translate registry files (.text text)
      let fresh := start registry
      let asked := fresh.1.translate fresh.2 files (.arguments (config.arguments text))
      configured.result = asked.result ∧ configured.engine.lastError = asked.engine.lastError ∧
        asked = configured.keeping {}) ∧
      ∀ (engine : Engine) (own : Options) (given : Arguments),
        let kept := (engine.keeping own).translate registry files (.arguments given)
        let asked := (engine.keeping {}).translate registry files
          (.arguments { given with options := own.merge given.options })
        kept.result = asked.result ∧ kept.engine.lastError = asked.engine.lastError ∧
          kept = asked.keeping own := by
  constructor
  · intro config text configured fresh asked
    have hasked : asked = configured.keeping {} := translate_arguments registry files config text
    rw [hasked]
    exact ⟨rfl, rfl, rfl⟩
  · intro engine own given kept asked
    have hkept : kept = asked.keeping own := translate_keeping engine registry files own given
    rw [hkept]
    exact ⟨rfl, rfl, rfl⟩

end Engine

end Schemata
