import Schemata.ClassModel.Basic
import Schemata.Pipeline.Role

/-!
# Why a translation fails
-/

namespace Schemata

/-- What a plugin reports as its failure. -/
inductive PluginFailure where
  | schema (error : SchemaError)
  | model (error : ModelError)
  | other (text : String)
  deriving DecidableEq, Repr

/-- The message of a plugin's failure. -/
def PluginFailure.message : PluginFailure → String
  | schema error => error.message
  | model error => error.message
  | other text => text

/-- Why a translation or its set-up fails. -/
inductive PipelineError where
  /-- A plugin's identifier does not lead to a plugin. -/
  | configuration (role : Role) (identifier reason : String)
  /-- A file or a stream cannot be read. -/
  | io (operation path reason : String)
  /-- An option has a value that means nothing. -/
  | invalidOption (key reason : String)
  /-- A plugin was given what it cannot work on. -/
  | unsupportedInput (plugin expected : String)
  /-- The text of a configuration is not one. -/
  | config (detail : String)
  /-- A plugin failed. -/
  | plugin (failure : PluginFailure)
  deriving DecidableEq, Repr

namespace PipelineError

/-- The message of an error. -/
def message : PipelineError → String
  | configuration role identifier reason =>
    "Configuration error: cannot resolve " ++ role.name ++ " '" ++ identifier ++ "': " ++ reason
  | .io operation path reason =>
    "IO error during " ++ operation ++ " for '" ++ path ++ "': " ++ reason
  | invalidOption key reason => "Invalid option '" ++ key ++ "': " ++ reason
  | unsupportedInput name expected => "Unsupported input for " ++ name ++ ": expected " ++ expected
  | config detail => "Invalid engine configuration: " ++ detail
  | plugin failure => failure.message

/-- The message of what lies behind an error. -/
def source? : PipelineError → Option String
  | plugin failure => some failure.message
  | _ => none

end PipelineError

end Schemata
