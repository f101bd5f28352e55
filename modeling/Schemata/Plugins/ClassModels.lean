import Schemata.ClassModel.Document
import Schemata.ClassModel.Extraction
import Schemata.Pipeline.Registry

/-!
# The class model plugin

The parser that reads a class model and draws its tables. The visibility option filters the nodes; a
model with classes of which none becomes a table is reported.
-/

namespace Schemata

/-- The filter that the options ask for. -/
def Options.filter (options : Options) : Except PipelineError (Option Visibility) :=
  match options.visibility? with
  | none => .ok none
  | some text =>
    match Visibility.ofText? text with
    | some visibility => .ok (some visibility)
    | none => .error (.invalidOption visibilityKey (Visibility.unknownMessage text))

/-- The report on a model of which no class became a table. -/
def nothingDrawn : Option Visibility → String
  | some filter => "no class passed the " ++ filter.name ++ " visibility filter"
  | none => "no named class found in the class model"

/-- The entry for a schema that was drawn. -/
def drawn (schema : Schema) : Event :=
  { level := .info
    message := "extracted schema from class model"
    fields := [("tables", toString schema.tables.length)] }

/-- The parser of class models. -/
def classModelParser : Parser where
  parse text context :=
    match context.options.filter with
    | .error reason => { result := .error reason, report? := context.report? }
    | .ok filter =>
      match ClassModel.read text with
      | .error reason => { result := .error (.plugin (.model reason)), report? := context.report? }
      | .ok model =>
        let drawing := model.extract filter { name := model.name }
        let journal := model.readEvent :: drawing.journal
        match drawing.failure with
        | some reason =>
          { result := .error (.plugin (.model (.schema reason)))
            report? := context.report?
            journal }
        | none =>
          { result := .ok (.schema drawing.value)
            report? :=
              if drawing.value.tables.isEmpty && !model.classes.isEmpty then
                some (nothingDrawn filter)
              else context.report?
            journal := journal ++ [drawn drawing.value] }

/-- Register the class model parser and its second name. -/
def registerClassModels (registry : Registry) : Progress PipelineError Registry :=
  (registry.register .parser "uml" classModelParser).andThen
    (·.registerAlias .parser "xmi" "uml")

end Schemata
