import Schemata.Files
import Schemata.Pipeline.Registry

/-!
# Inputs

What a translation is given: a text, a file, a stream, or arguments that name one of these together
with plugins and options. `Input.normalize` reduces all of them to a text, if there is one, and the
arguments that go with it.
-/

namespace Schemata

/-- What a stream delivers read by read, and the failure of the read after these, if it fails. A read
that delivers nothing is the end. -/
structure Stream where
  chunks : List ByteArray
  failure : Option String := none

/-- The arguments of a translation. -/
structure Arguments where
  /-- The text; a file that is named beside it is not read. -/
  data : Option String := none
  filename : Option String := none
  /-- A parser to use from now on. -/
  parser : Option (Reference .parser) := none
  /-- A producer to use from now on. -/
  producer : Option (Reference .producer) := none
  options : Options := {}

/-- What a translation is given. -/
inductive Input where
  | text (content : String)
  | buffer (content : String)
  | path (path : String)
  | stream (stream : Stream)
  | arguments (arguments : Arguments)

namespace Stream

/-- Read on to the end of a stream, behind the bytes that were read before. -/
def drain (failure : Option String) : ByteArray → List ByteArray → ByteArray × Option String
  | buffer, [] => (buffer, failure)
  | buffer, chunk :: rest =>
    if chunk.isEmpty then (buffer, none) else drain failure (buffer ++ chunk) rest

/-- The text of a stream that is read to its end. A failing stream has none, and its failure is told
whatever it delivered before. -/
def readText (stream : Stream) : Except String String :=
  match drain stream.failure .empty stream.chunks with
  | (_, some reason) => .error reason
  | (bytes, none) => decodeText bytes

end Stream

namespace Arguments

/-- Take one pair into the arguments: some keys name a slot, every other key is an option. -/
def take (arguments : Arguments) (key value : String) : Arguments :=
  if key = "data" then { arguments with data := some value }
  else if key = "filename" ∨ key = "file" then { arguments with filename := some value }
  else if key = "parser" ∨ key = "from" then { arguments with parser := some (.named value) }
  else if key = "producer" ∨ key = "to" then { arguments with producer := some (.named value) }
  else { arguments with options := arguments.options.set key value }

/-- The arguments of a list of pairs, of which the last one for a slot counts. -/
def ofPairs (pairs : List (String × String)) : Arguments :=
  pairs.foldl (fun arguments pair => arguments.take pair.1 pair.2) {}

end Arguments

/-- An input reduced to its text and its arguments. -/
structure Normalized where
  /-- Without a text there is nothing to translate. -/
  payload : Option String
  /-- The arguments without their text. -/
  arguments : Arguments

namespace Input

/-- The entry for a stream that was read. -/
def drained (text : String) : Event :=
  { level := .trace
    message := "drained input stream"
    fields := [("bytes", toString text.utf8ByteSize)] }

/-- The entry for a file that was read. -/
def fileRead (path text : String) : Event :=
  { level := .debug
    message := "read input file"
    fields := [("path", path), ("bytes", toString text.utf8ByteSize)] }

/-- The arguments that an input stands for. -/
def toArguments : Input → Journal × Except PipelineError Arguments
  | text content => ([], .ok { data := some content })
  | buffer content => ([], .ok { data := some content })
  | path file => ([], .ok { filename := some file })
  | stream source =>
    match source.readText with
    | .error reason => ([], .error (.io "read" "<stream>" reason))
    | .ok content => ([drained content], .ok { data := some content })
  | arguments given => ([], .ok given)

/-- Find the text of some arguments. -/
def load (files : Files) (given : Arguments) : Journal × Except PipelineError Normalized :=
  let rest := { given with data := none }
  match given.data, given.filename with
  | some content, _ => ([], .ok { payload := some content, arguments := rest })
  | none, some file =>
    match files.readText file with
    | .error reason => ([], .error (.io "read" file reason))
    | .ok content => ([fileRead file content], .ok { payload := some content, arguments := rest })
  | none, none => ([], .ok { payload := none, arguments := rest })

/-- Reduce an input to its text and its arguments. -/
def normalize (files : Files) (input : Input) : Journal × Except PipelineError Normalized :=
  match input.toArguments with
  | (journal, .error reason) => (journal, .error reason)
  | (journal, .ok given) =>
    let (reading, result) := load files given
    (journal ++ reading, result)

end Input

open Text (Outline)

/-- A reference as a diagnostic shows it. -/
def Reference.outline {role : Role} : Reference role → Outline
  | named name => .tuple "Named" [.text name]
  | direct _ => .word "Direct(..)"

/-- Arguments as a diagnostic shows them. -/
def Arguments.outline (arguments : Arguments) : Outline :=
  .record "TranslateArgs"
    [("data", .optional (arguments.data.map .text)),
     ("filename", .optional (arguments.filename.map .path)),
     ("parser", .optional (arguments.parser.map Reference.outline)),
     ("producer", .optional (arguments.producer.map Reference.outline)),
     ("options", arguments.options.outline)] true

/-- An input as a diagnostic shows it: of texts only their size in bytes. -/
def Input.outline : Input → Outline
  | text content => .tuple "Text" [.word (toString content.utf8ByteSize)]
  | buffer content => .tuple "Buffer" [.word (toString content.utf8ByteSize)]
  | path file => .tuple "Path" [.path file]
  | stream _ => .word "Reader(..)"
  | arguments given => .tuple "Args" [given.outline]

end Schemata
