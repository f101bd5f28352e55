import Schemata.Document.Json.Writer
import Schemata.Document.Yaml.Writer
import Schemata.Pipeline.Registry
import Schemata.Schema.Document

/-!
# Document plugins

The parsers that load schema documents and the producers that write them.
-/

namespace Schemata

/-- The text of a schema's document. -/
def Schema.render (schema : Schema) : Format → String
  | .json => Json.pretty schema.document ++ "\n"
  | .yaml => Yaml.write schema.document

/-- The parser of schema documents. -/
def documentParser (format : Format) : Parser where
  parse text context :=
    let loading := Schema.load format text
    match loading.failure with
    | some reason =>
      { result := .error (.plugin (.schema reason))
        report? := context.report?
        journal := loading.journal }
    | none =>
      { result := .ok (.schema loading.value)
        report? := context.report?
        journal := loading.journal ++
          [{ level := .debug
             message := "parsed schema document"
             fields := [("format", format.name), ("tables", toString loading.value.tables.length)] }] }

/-- The producer of schema documents. -/
def documentProducer (format : Format) : Producer where
  produce
    | .schema schema, context =>
      let text := schema.render format
      { result := .ok (.text text)
        report? := context.report?
        journal :=
          [{ level := .debug
             message := "rendered schema document"
             fields := [("format", format.name), ("bytes", toString text.utf8ByteSize)] }] }
    | .text _, context =>
      { result := .error (.unsupportedInput (format.name ++ " producer") "a schema")
        report? := context.report? }

/-- Register the document plugins of both formats, and a second name for one of them. -/
def registerDocuments (registry : Registry) : Progress PipelineError Registry :=
  (((((registry.register .parser "json" (documentParser .json)).andThen
    (·.register .producer "json" (documentProducer .json))).andThen
    (·.register .parser "yaml" (documentParser .yaml))).andThen
    (·.register .producer "yaml" (documentProducer .yaml))).andThen
    (·.registerAlias .parser "yml" "yaml")).andThen
    (·.registerAlias .producer "yml" "yaml")

end Schemata
