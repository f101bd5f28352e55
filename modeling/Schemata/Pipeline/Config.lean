import Schemata.Document.Format
import Schemata.Journal
import Schemata.Pipeline.Error
import Schemata.Files
import Schemata.Pipeline.Options

/-!
# Engine configurations
-/

namespace Schemata

/-- The plugins and options that an engine starts with. -/
structure EngineConfig where
  parser : String := "identity"
  producer : String := "identity"
  /-- The visibility filter, which wins over the option of its name. -/
  visibility : Option String := none
  options : Options := {}

namespace EngineConfig

/-- How a configuration is read. -/
def form {σ φ : Type} : RecordForm σ φ EngineConfig where
  title := "EngineConfig"
  start := {}
  fields :=
    [(.orNamed (.of "parser" .text fun config parser => { config with parser }) "from"),
     (.orNamed (.of "producer" .text fun config producer => { config with producer }) "to"),
     (.of "visibility" .optionalText fun config visibility => { config with visibility }),
     (.of "options" .textPairs fun config pairs => { config with options := .ofPairs pairs })]

/-- A configuration as a document shows it: without a visibility that is not given, and without
options when there are none. -/
def document (config : EngineConfig) : Value :=
  .object <|
    [("parser", .text config.parser), ("producer", .text config.producer)] ++
      Value.whenSome "visibility" config.visibility ++
      (if config.options.isEmpty then [] else [("options", config.options.document)])

/-- Read a configuration from a text. -/
def ofText (format : Format) (text : String) : Except PipelineError EngineConfig :=
  (format.decode form.decode text).mapError .config

/-- The entry for a configuration file that is about to be read. -/
def loading (path : String) : Event :=
  { level := .trace, message := "Loading engine configuration from " ++ Text.quotePath path }

/-- Read a configuration from a file. -/
def ofFile (files : Files) (path : String) : Progress PipelineError EngineConfig :=
  (Progress.step {} (loading path)).andThen fun usual =>
    match files.readText path with
    | .error reason => .fail usual (.io "read config" path reason)
    | .ok text =>
      match ofText (.ofPath path) text with
      | .error reason => .fail usual reason
      | .ok config => .pure config

/-- The options for the plugins, the visibility filter among them. -/
def pluginOptions (config : EngineConfig) : Options :=
  match config.visibility with
  | some visibility => config.options.set visibilityKey visibility
  | none => config.options

end EngineConfig

end Schemata
