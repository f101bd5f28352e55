import Schemata.Journal
import Schemata.Pipeline.Error
import Schemata.Pipeline.Options
import Schemata.Schema.Basic

/-!
# Plugins

A parser turns a text into a representation, a producer turns a representation into another. What
the representation holds is a matter between the two. Beside its result a plugin may leave a report,
which is not a failure, and a journal.
-/

namespace Schemata

/-- What a parser hands to a producer. -/
inductive Representation where
  | text (content : String)
  | schema (schema : Schema)
  deriving DecidableEq, Repr

namespace Representation

/-- Which kind of representation it is. -/
def kind : Representation → String
  | text _ => "text"
  | schema _ => "schema"

/-- The schema, if it is one. -/
def schema? : Representation → Option Schema
  | text _ => none
  | schema held => some held

end Representation

/-- What a plugin is given beside its input. -/
structure Context where
  options : Options := {}
  /-- The report that was made last and not taken yet. -/
  report? : Option String := none

/-- Make a report, in place of an earlier one. -/
def Context.report (context : Context) (message : String) : Context :=
  { context with report? := some message }

/-- What a plugin leaves behind. -/
structure Reply where
  result : Except PipelineError Representation
  /-- The report that stands after the run. -/
  report? : Option String := none
  journal : Journal := []

/-- From a text to a representation. -/
structure Parser where
  parse : String → Context → Reply

/-- From a representation to another. -/
structure Producer where
  produce : Representation → Context → Reply

/-- A plugin of a role. -/
def Plugin : Role → Type
  | .parser => Parser
  | .producer => Producer

/-- The parser that passes the text on. -/
def identityParser : Parser where
  parse text context := { result := .ok (.text text), report? := context.report? }

/-- The producer that passes the representation on. -/
def identityProducer : Producer where
  produce representation context := { result := .ok representation, report? := context.report? }

end Schemata
