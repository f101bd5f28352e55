import Mathlib
import Schemata.CommandLine.Run
import Schemata.Proofs.CommandLine.Words
import Schemata.Proofs.Document.Records
import Schemata.Proofs.Pipeline.Inputs
import Schemata.Proofs.Pipeline.Setup

/-!
# Settings of a request and of its configuration file

A key can be set by an option of its own, by a pair, and in two places of the configuration file.
`Request.setting?` says which of them the plugins see, and `translate_settled` that a translation is
run with the plugins and the options that are settled so. The command line has the last word on
every key but one: a visibility that the file sets in its own place stands before a visibility that
is given as a pair, `file_prevails_iff`.
-/

namespace Schemata.CommandLine

open Options (lastValue?)
open Engine (perform)

namespace Request

/-- What the command line sets for a key: an option of its own comes before a pair. -/
def given? (request : Request) (key : String) : Option String :=
  let pair? := lastValue? request.options key
  if key = visibilityKey then request.visibility.or pair? else pair?

/-- What the plugins see for a key, beside a configuration file. -/
def setting? (request : Request) (config : EngineConfig) (key : String) : Option String :=
  let option? := (lastValue? request.options key).or (config.options.get? key)
  if key = visibilityKey then request.visibility.or (config.visibility.or option?) else option?

end Request

theorem plugin_options_get? (config : EngineConfig) (key : String) :
    config.pluginOptions.get? key =
      if key = visibilityKey then config.visibility.or (config.options.get? key)
      else config.options.get? key := by
  unfold EngineConfig.pluginOptions
  cases config.visibility with
  | none => simp
  | some visibility =>
      rw [Options.get?_set]
      split <;> rfl

/-- The settled options hold what the plugins are to see. -/
theorem configure_get? (request : Request) (config : EngineConfig) (key : String) :
    (request.configure config).pluginOptions.get? key = request.setting? config key := by
  have hoptions : (request.configure config).options.get? key =
      (lastValue? request.options key).or (config.options.get? key) :=
    config.options.get?_setAll request.options key
  have hvisibility : (request.configure config).visibility =
      request.visibility.or config.visibility := by
    cases hgiven : request.visibility <;> simp [Request.configure, hgiven]
  rw [plugin_options_get?, hoptions, hvisibility, Option.or_assoc]
  rfl

/-- The file has the last word on a key that the command line sets exactly when the key is the
visibility, it is set by a pair only, and the file sets another one in its own place. -/
theorem file_prevails_iff (request : Request) (config : EngineConfig) (key : String) :
    request.setting? config key ≠ (request.given? key).or (config.pluginOptions.get? key) ↔
      key = visibilityKey ∧ request.visibility = none ∧
        ∃ pair visibility, lastValue? request.options visibilityKey = some pair ∧
          config.visibility = some visibility ∧ visibility ≠ pair := by
  rw [plugin_options_get?]
  -- on every other key the pair stands before the file on both sides
  by_cases hkey : key = visibilityKey
  · subst hkey
    simp only [Request.setting?, Request.given?, if_true, true_and]
    cases request.visibility with
    | some visibility => simp
    | none =>
        cases lastValue? request.options visibilityKey with
        | none => simp
        | some pair => cases config.visibility <;> simp
  · simp [Request.setting?, Request.given?, hkey]

/-- Of two visibilities, one from a pair of the command line and one from the file, the plugins see
the file's. -/
theorem file_visibility_prevails :
    let request : Request := { options := [("visibility", "private")] }
    let config : EngineConfig := { parser := "uml", visibility := some "public" }
    request.given? visibilityKey = some "private" ∧
      (request.configure config).pluginOptions.visibility? = some "public" := by
  decide

section

variable {request : Request} {files : Files} {stdin : Stream}

/-- What a request reads asks for no plugins and sets no options. -/
theorem source_arguments {journal : Journal} {payload : Option String} {arguments : Arguments}
    (h : (request.source stdin).normalize files = (journal, .ok { payload, arguments })) :
    arguments.parser = none ∧ arguments.producer = none ∧ arguments.options = {} := by
  unfold Request.source at h
  cases hinput : request.input with
  | some path =>
      simp only [hinput, Input.normalize, Input.toArguments, Input.load] at h
      cases hfile : files.readText path with
      | error reason => simp [hfile] at h
      | ok content =>
          simp only [hfile, Prod.mk.injEq, Except.ok.injEq, Normalized.mk.injEq] at h
          obtain ⟨-, -, rfl⟩ := h
          exact ⟨rfl, rfl, rfl⟩
  | none =>
      simp only [hinput, Input.normalize, Input.toArguments] at h
      cases hstream : stdin.readText with
      | error reason => simp [hstream] at h
      | ok content =>
          simp only [hstream, Input.load, Prod.mk.injEq, Except.ok.injEq, Normalized.mk.injEq] at h
          obtain ⟨-, -, rfl⟩ := h
          exact ⟨rfl, rfl, rfl⟩

variable {config : EngineConfig} {reason : PipelineError}

theorem translate_unprepared {failure : Failure} (h : prepare files request = .error failure) :
    translate files stdin request = .ofFailure [] failure := by
  rw [translate, h]

theorem prepare_refused (hconfig : request.fileConfig files = .ok config)
    (h : (Engine.ofConfig catalogue.value (request.configure config)).result = .error reason) :
    prepare files request = .error (failureOf reason) := by
  simp [prepare, hconfig, h, bind, Except.bind]

/-- The engine of a request has the plugins and the options that are settled. -/
theorem prepare_ready {parser : Parser} {producer : Producer}
    (hconfig : request.fileConfig files = .ok config)
    (hparser : catalogue.value.found .parser (.named (request.parser.getD config.parser)) =
      .ok parser)
    (hproducer : catalogue.value.found .producer
      (.named (request.producer.getD config.producer)) = .ok producer) :
    ∃ engine registry, prepare files request = .ok (engine, registry) ∧
      engine.parser.plugin = parser ∧ engine.producer.plugin = producer ∧
      engine.options = (request.configure config).pluginOptions ∧ engine.lastError = "" := by
  have hready :=
    @Engine.of_config_ready catalogue.value (request.configure config) _ _ hparser hproducer
  have hprepare : prepare files request =
      .ok ((Engine.ofConfig catalogue.value (request.configure config)).engine,
        (Engine.ofConfig catalogue.value (request.configure config)).registry) := by
    simp [prepare, hconfig, hready.1, bind, Except.bind]
  exact ⟨_, _, hprepare, hready.2⟩

/-- The turn of an engine that translates what a request reads. -/
theorem source_turn {engine : Engine} {registry : Registry} {journal : Journal} {content : String}
    {arguments : Arguments}
    (hread : (request.source stdin).normalize files =
      (journal, .ok { payload := some content, arguments })) :
    let turn := engine.translate registry files (request.source stdin)
    let performance := perform engine.parser.plugin engine.producer.plugin engine.options content
    turn.result = performance.result ∧
      turn.engine.lastError = performance.recorded?.getD engine.lastError := by
  obtain ⟨hparser, hproducer, hoptions⟩ := source_arguments hread
  have hparsers : registry.choose .parser engine.parser arguments.parser =
      { registry, result := .ok engine.parser } := by
    rw [hparser]
    rfl
  have hproducers : registry.choose .producer engine.producer arguments.producer =
      { registry, result := .ok engine.producer } := by
    rw [hproducer]
    rfl
  have hturn := @Engine.translate_performed engine registry files _ _ _ _ _ _ _ _ hread hparsers rfl
    hproducers rfl
  have hmerge : engine.options.merge arguments.options = engine.options := by rw [hoptions]; rfl
  simp only [hturn, hmerge, and_self]

/-- An engine that is ready runs its plugins on what a request reads. -/
theorem translate_ready {engine : Engine} {registry : Registry} {journal : Journal}
    {content : String} {arguments : Arguments}
    (hprepare : prepare files request = .ok (engine, registry))
    (hread : (request.source stdin).normalize files =
      (journal, .ok { payload := some content, arguments })) :
    translate files stdin request =
      let performance := perform engine.parser.plugin engine.producer.plugin engine.options content
      request.report performance.result (performance.recorded?.getD engine.lastError) := by
  obtain ⟨hresult, hlast⟩ := @source_turn request files stdin engine registry _ _ _ hread
  rw [translate, hprepare]
  simp only [hresult, hlast]

end

section

variable {σ φ : Type} {scope : Scope σ φ} {path : Path} {count after : Nat}

/-- Only the keys of a plugin change it. -/
theorem config_read_keeps {name : String} {field : FieldForm σ φ EngineConfig}
    {record updated : EngineConfig} {tree : Tree σ .value}
    (hfield : EngineConfig.form.field? name = some field)
    (hread : field.read record scope path tree count = .ok (updated, after)) :
    (name ≠ "parser" → name ≠ "from" → updated.parser = record.parser) ∧
      (name ≠ "producer" → name ≠ "to" → updated.producer = record.producer) := by
  obtain ⟨hmem, hanswers⟩ := RecordForm.field_eq_some hfield
  simp only [EngineConfig.form, List.mem_cons, List.not_mem_nil, or_false] at hmem
  obtain rfl | rfl | rfl | rfl := hmem
  · rw [FieldForm.or_named_read] at hread
    obtain ⟨parser, rfl⟩ := FieldForm.of_read_eq_ok hread
    refine ⟨fun hparser hfrom => ?_, fun _ _ => rfl⟩
    simp [FieldForm.answers, FieldForm.orNamed, FieldForm.of, hparser.symm, hfrom.symm] at hanswers
  · rw [FieldForm.or_named_read] at hread
    obtain ⟨producer, rfl⟩ := FieldForm.of_read_eq_ok hread
    refine ⟨fun _ _ => rfl, fun hproducer hto => ?_⟩
    simp [FieldForm.answers, FieldForm.orNamed, FieldForm.of, hproducer.symm, hto.symm] at hanswers
  · obtain ⟨visibility, rfl⟩ := FieldForm.of_read_eq_ok hread
    exact ⟨fun _ _ => rfl, fun _ _ => rfl⟩
  · obtain ⟨pairs, rfl⟩ := FieldForm.of_read_eq_ok hread
    exact ⟨fun _ _ => rfl, fun _ _ => rfl⟩

/-- A configuration that names no plugin of a role has the one that passes on what it is given. -/
theorem config_usual {all : Tree σ .members} {config : EngineConfig}
    (h : EngineConfig.form.decode scope path (.object all) count = .ok (config, after)) :
    (¬ HasKey scope path "parser" all → ¬ HasKey scope path "from" all →
      config.parser = "identity") ∧
    (¬ HasKey scope path "producer" all → ¬ HasKey scope path "to" all →
      config.producer = "identity") := by
  have hmembers : EngineConfig.form.members scope path [] {} all count = .ok (config, after) := h
  constructor
  · intro hparser hfrom
    refine RecordForm.members_keep (·.parser) ?_ hmembers
    intro name field hname hfield record place tree count updated after hread
    exact (config_read_keeps hfield hread).1 (fun heq => hparser (heq ▸ hname))
      (fun heq => hfrom (heq ▸ hname))
  · intro hproducer hto
    refine RecordForm.members_keep (·.producer) ?_ hmembers
    intro name field hname hfield record place tree count updated after hread
    exact (config_read_keeps hfield hread).2 (fun heq => hproducer (heq ▸ hname))
      (fun heq => hto (heq ▸ hname))

end

/-- A request is run with the parser and the producer that the command line names, else the
configuration file, else with those that pass on what they are given, and with the options that are
settled between the command line and the file. -/
theorem translate_settled (request : Request) (files : Files) (stdin : Stream) :
    (request.Writable → read request.words = .ok (.translate request)) ∧
    (∀ text key value, keyValue? text = some (key, value) ↔
      key ≠ "" ∧ '=' ∉ key.toList ∧ text = key ++ "=" ++ value) ∧
    (request.config = none → request.fileConfig files = .ok {}) ∧
    (∀ (σ φ : Type) (scope : Scope σ φ) (path : Path) (all : Tree σ .members) (count after : Nat)
        (config : EngineConfig),
      EngineConfig.form.decode scope path (.object all) count = .ok (config, after) →
        (¬ HasKey scope path "parser" all → ¬ HasKey scope path "from" all →
          config.parser = "identity") ∧
        (¬ HasKey scope path "producer" all → ¬ HasKey scope path "to" all →
          config.producer = "identity")) ∧
    (∀ failure, request.fileConfig files = .error failure →
      translate files stdin request = .ofFailure [] failure) ∧
    ∀ config, request.fileConfig files = .ok config →
      let parser := request.parser.getD config.parser
      let producer := request.producer.getD config.producer
      let options := (request.configure config).pluginOptions
      (∀ key, options.get? key = request.setting? config key) ∧
      (∀ key, options.get? key ≠ (request.given? key).or (config.pluginOptions.get? key) ↔
        key = visibilityKey ∧ request.visibility = none ∧
          ∃ pair visibility, lastValue? request.options visibilityKey = some pair ∧
            config.visibility = some visibility ∧ visibility ≠ pair) ∧
      (∀ reason, catalogue.value.found .parser (.named parser) = .error reason →
        translate files stdin request = .ofFailure [] (failureOf reason)) ∧
      ∀ parsing, catalogue.value.found .parser (.named parser) = .ok parsing →
        (∀ reason, catalogue.value.found .producer (.named producer) = .error reason →
          translate files stdin request = .ofFailure [] (failureOf reason)) ∧
        ∀ producing, catalogue.value.found .producer (.named producer) = .ok producing →
          ∀ journal content arguments, (request.source stdin).normalize files =
              (journal, .ok { payload := some content, arguments }) →
            let performance := perform parsing producing options content
            translate files stdin request =
              request.report performance.result (performance.recorded?.getD "") := by
  refine ⟨read_words, fun text key value => key_value_eq_some_iff, ?_,
    fun σ φ scope path all count after config => config_usual, ?_, ?_⟩
  · intro hnone
    rw [Request.fileConfig, hnone]
  · intro failure hfailure
    exact translate_unprepared (by simp [prepare, hfailure, bind, Except.bind])
  · intro config hconfig parser producer options
    refine ⟨configure_get? request config, ?_, ?_, ?_⟩
    · intro key
      rw [configure_get? request config key]
      exact file_prevails_iff request config key
    · intro reason hparser
      have hrefused :=
        @Engine.of_config_parser_refused catalogue.value (request.configure config) _ hparser
      exact translate_unprepared (prepare_refused hconfig hrefused)
    · intro parsing hparser
      constructor
      · intro reason hproducer
        have hrefused := @Engine.of_config_producer_refused catalogue.value
          (request.configure config) _ _ hparser hproducer
        exact translate_unprepared (prepare_refused hconfig hrefused)
      · intro producing hproducer journal content arguments hread performance
        obtain ⟨engine, registry, hprepare, rfl, rfl, hoptions, hlast⟩ :=
          prepare_ready hconfig hparser hproducer
        have htranslate := translate_ready hprepare hread
        rw [hoptions, hlast] at htranslate
        exact htranslate

/-- A request that sets the visibility by a pair, beside a file that sets another one. -/
theorem translate_settled_visibility :
    let request : Request :=
      { input := some "m.json"
        producer := some "json"
        config := some "c.json"
        options := [("visibility", "private")] }
    let text := "\x7b\"from\":\"uml\",\"visibility\":\"public\"\x7d"
    let files : Files := fun _ => .ok text.toUTF8
    let config : EngineConfig := { parser := "uml", visibility := some "public" }
    request.Writable ∧ request.fileConfig files = .ok config ∧
      read request.words = .ok (.translate request) ∧
      (request.configure config).pluginOptions.get? visibilityKey = some "public" := by
  intro request text files config
  have hwritable : request.Writable := ⟨by decide, by decide, by decide, by decide⟩
  have htext : EngineConfig.ofText .json "\x7b\"from\":\"uml\",\"visibility\":\"public\"\x7d" =
      .ok { parser := "uml", visibility := some "public" } := by
    cbv
  have hfile : files.readText "c.json" = .ok text := decode_text_utf8 text
  have hformat : Format.ofPath "c.json" = .json := by decide
  have hconfig : request.fileConfig files = .ok config := by
    simp only [Request.fileConfig, request, EngineConfig.ofFile, hfile, hformat, text, htext]
    rfl
  have hsetting : request.setting? config visibilityKey = some "public" := by decide
  obtain ⟨hread, -, -, -, -, hsettled⟩ := translate_settled request files { chunks := [] }
  exact ⟨hwritable, hconfig, hread hwritable,
    ((hsettled config hconfig).1 visibilityKey).trans hsetting⟩

end Schemata.CommandLine
