import Schemata.CommandLine.Arguments
import Schemata.Pipeline.Engine
import Schemata.Plugins.Catalogue

/-!
# Running a command

What a command line comes to, given the files it can read and what stands on the standard input: an
exit code, texts for both outputs, and at most one file to write. Nothing is written by a command
that fails.
-/

namespace Schemata.CommandLine

/-- A message and the message of what lies behind it. -/
structure Failure where
  message : String
  cause? : Option String := none

/-- A text with four blanks before each of its lines. -/
def indentLines (text : String) : List String :=
  (text.splitOn "\n").map ("    " ++ ·)

/-- The lines that tell of a failure. -/
def Failure.lines (failure : Failure) : List String :=
  ("Error: " ++ failure.message).splitOn "\n" ++
    match failure.cause? with
    | none => []
    | some cause => ["", "Caused by:"] ++ indentLines cause

/-- What a command comes to. -/
structure Report where
  exit : Nat := 0
  stdout : String := ""
  /-- The lines for the error output. -/
  errors : List String := []
  /-- The warnings that go before them. -/
  warnings : List String := []
  /-- A file to write, with its text. -/
  write? : Option (String × String) := none

namespace Report

/-- The report of a failure. -/
def ofFailure (warnings : List String) (failure : Failure) : Report :=
  { exit := 1, errors := failure.lines, warnings }

/-- The report when the file cannot be written. -/
def refused (report : Report) (reason : String) : Report :=
  match report.write? with
  | none => report
  | some (path, _) =>
    ofFailure report.warnings { message := "writing " ++ path, cause? := some reason }

end Report

/-- The failure of a translation. -/
def failureOf (error : PipelineError) : Failure :=
  { message := error.message, cause? := error.source? }

namespace Request

/-- The configuration of a request's file, or the usual one. -/
def fileConfig (request : Request) (files : Files) : Except Failure EngineConfig :=
  match request.config with
  | none => .ok {}
  | some path =>
    (EngineConfig.ofFile files path).result.mapError fun error =>
      { message := "loading config " ++ path, cause? := some error.message }

/-- The configuration under the settings of a request, which win. -/
def configure (request : Request) (config : EngineConfig) : EngineConfig :=
  { parser := request.parser.getD config.parser
    producer := request.producer.getD config.producer
    visibility := request.visibility <|> config.visibility
    options := config.options.setAll request.options }

/-- The input of a request. -/
def source (request : Request) (stdin : Stream) : Input :=
  match request.input with
  | some path => .path path
  | none => .stream stdin

end Request

/-- The text of what was produced; a schema is written as the document producer would. -/
def textOf : Representation → String
  | .text content => content
  | .schema schema => schema.render .yaml

/-- The engine that a request sets up. -/
def prepare (files : Files) (request : Request) : Except Failure (Engine × Registry) := do
  let config ← request.fileConfig files
  let turn := Engine.ofConfig catalogue.value (request.configure config)
  match turn.result with
  | .error error => .error (failureOf error)
  | .ok () => .ok (turn.engine, turn.registry)

/-- The report of a translation, given its result and the last error. -/
def Request.report (request : Request) (result : Except PipelineError Outcome)
    (lastError : String) : Report :=
  match result with
  | .error error => .ofFailure [] (failureOf error)
  | .ok outcome =>
    let warnings := if lastError.isEmpty then [] else [lastError]
    match outcome with
    | .noData => { warnings := warnings ++ ["No input data"] }
    | .produced output =>
      match request.output with
      | some path => { warnings, write? := some (path, textOf output) }
      | none => { warnings, stdout := textOf output }

/-- Run a translation. -/
def translate (files : Files) (stdin : Stream) (request : Request) : Report :=
  match prepare files request with
  | .error failure => .ofFailure [] failure
  | .ok (engine, registry) =>
    let turn := engine.translate registry files (request.source stdin)
    request.report turn.result turn.engine.lastError

/-- The lines that list the plugins of a role. -/
def listRole (registry : Registry) (role : Role) : String :=
  role.name ++ "s:\n" ++
    String.join ((registry.names role).map fun name => "  " ++ name ++ "\n") ++
    String.join ((registry.aliases role).map fun entry =>
      "  " ++ entry.1 ++ " -> " ++ entry.2 ++ "\n")

/-- The files that a command line names to be read. -/
def filesRead (words : List String) : List String :=
  match read words with
  | .ok (.translate request) => request.config.toList ++ request.input.toList
  | _ => []

/-- Whether a command line comes to reading the standard input. -/
def readsStdin (files : Files) (words : List String) : Bool :=
  match read words with
  | .ok (.translate request) =>
    request.input.isNone && (prepare files request).toOption.isSome
  | _ => false

/-- Run a command line. -/
def run (files : Files) (stdin : Stream) (words : List String) : Report :=
  match read words with
  | .error (.information text) => { stdout := text }
  | .error (.usage reason) =>
    { exit := 2, errors := [("error: " ++ reason.getD "the command line is not understood")] }
  | .ok .plugins =>
    { stdout := listRole catalogue.value .parser ++ listRole catalogue.value .producer }
  | .ok (.translate request) => translate files stdin request

end Schemata.CommandLine
