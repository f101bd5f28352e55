/-!
# Arguments of the command line

The words of the command line become a command, or a reason to stop. A word that starts with a dash
is a row of short options or one long option; the value of an option stands in the same word or in
the next one. The value is taken up when the next option or position is met, so of two mistakes the
one is told whose word is met first in this sense.
-/

namespace Schemata.CommandLine

/-- An option that takes a value, or the position of the input. -/
inductive Slot where
  | input
  | parser
  | producer
  | visibility
  | config
  | output
  | option
  deriving DecidableEq, Repr

/-- What a translation is asked to do. -/
structure Request where
  /-- The file to read instead of the standard input. -/
  input : Option String := none
  parser : Option String := none
  producer : Option String := none
  visibility : Option String := none
  config : Option String := none
  /-- The file to write instead of the standard output. -/
  output : Option String := none
  options : List (String × String) := []
  deriving DecidableEq, Repr

/-- What the command line asks for. -/
inductive Command where
  | translate (request : Request)
  | plugins
  deriving DecidableEq, Repr

/-- Why no command is run. -/
inductive Stop where
  /-- The words are not a command; for the value of an option the reason is told. -/
  | usage (reason : Option String)
  /-- The words only ask for a text. -/
  | information (text : String)
  deriving DecidableEq, Repr

/-- The name and version that are told when asked for. -/
def version : String := "sqlt 0.1.0\n"

namespace Slot

/-- The option of a letter. -/
def ofLetter? (c : Char) : Option Slot :=
  match c with
  | 'f' => some .parser
  | 't' => some .producer
  | 'c' => some .config
  | 'o' => some .output
  | _ => none

/-- The option of a long name. -/
def ofName? (name : String) : Option Slot :=
  match name with
  | "from" => some .parser
  | "to" => some .producer
  | "visibility" => some .visibility
  | "config" => some .config
  | "output" => some .output
  | "option" => some .option
  | _ => none

/-- Whether the value is a path, which may not be empty. -/
def isPath : Slot → Bool
  | input | config | output => true
  | _ => false

end Slot

/-- A key and a value around the first equals sign; the key may not be empty. -/
def keyValue? (text : String) : Option (String × String) :=
  let key := text.toList.takeWhile (· != '=')
  match text.toList.dropWhile (· != '=') with
  | _ :: value => if key.isEmpty then none else some (String.ofList key, String.ofList value)
  | [] => none

/-- The reason for refusing a text that is no key and value. -/
def notKeyValue (text : String) : String :=
  "invalid value '" ++ text ++ "' for '--option <OPTIONS>': expected key=value, got '" ++ text ++ "'"

/-- Put a value in a slot that is still empty. -/
def fill (old : Option String) (value : String) : Except Stop (Option String) :=
  match old with
  | none => .ok (some value)
  | some _ => .error (.usage none)

namespace Request

/-- Take up the value of a slot. -/
def take (request : Request) (slot : Slot) (value : String) : Except Stop Request :=
  if slot.isPath && value.isEmpty then .error (.usage none)
  else
    match slot with
    | .input => do pure { request with input := ← fill request.input value }
    | .parser => do pure { request with parser := ← fill request.parser value }
    | .producer => do pure { request with producer := ← fill request.producer value }
    | .visibility => do pure { request with visibility := ← fill request.visibility value }
    | .config => do pure { request with config := ← fill request.config value }
    | .output => do pure { request with output := ← fill request.output value }
    | .option =>
      match keyValue? value with
      | some pair => .ok { request with options := request.options ++ [pair] }
      | none => .error (.usage (some (notKeyValue value)))

end Request

/-- How far the words were read. -/
structure State where
  request : Request := {}
  /-- A slot that was met and whose value is not taken up yet; the value may still be missing. -/
  pending : Option (Slot × Option String) := none
  /-- Whether the flag for more messages was met. -/
  verbose : Bool := false
  /-- Whether an input was met. -/
  hasInput : Bool := false

namespace State

/-- Take up the pending value. -/
def settle (state : State) : Except Stop State :=
  match state.pending with
  | none => .ok state
  | some (_, none) => .error (.usage none)
  | some (slot, some value) => do
    pure { state with request := ← state.request.take slot value, pending := none }

/-- Meet the flag for more messages, at most once. -/
def setVerbose (state : State) : Except Stop State := do
  let state ← state.settle
  if state.verbose then .error (.usage none) else pure { state with verbose := true }

/-- Meet an option with its value in the same word. -/
def attach (state : State) (slot : Slot) (value : String) : Except Stop State := do
  let state ← state.settle
  pure { state with request := ← state.request.take slot value }

/-- Meet an option whose value is to follow. -/
def await (state : State) (slot : Slot) : Except Stop State := do
  let state ← state.settle
  pure { state with pending := some (slot, none) }

/-- Stop for the help text. -/
def help {α : Type} (state : State) : Except Stop α := do
  let _ ← state.settle
  .error (.information "")

/-- Meet the input, at most once. -/
def setInput (state : State) (word : String) : Except Stop State :=
  if state.hasInput then .error (.usage none)
  else do
    let state ← state.settle
    pure { state with pending := some (.input, some word), hasInput := true }

/-- Read a row of short options. -/
def letters (slots : Bool) : State → List Char → Except Stop State
  | state, [] => .ok state
  | state, c :: rest =>
    if c = 'v' then do letters slots (← state.setVerbose) rest
    else if c = 'h' then state.help
    else
      match if slots then Slot.ofLetter? c else none with
      | none => .error (.usage none)
      | some slot =>
        match rest with
        | [] => state.await slot
        | '=' :: value => state.attach slot (String.ofList value)
        | value => state.attach slot (String.ofList value)

/-- Read a long option: its name, and its value if it has one in the same word. -/
def long (slots : Bool) (state : State) (name : String) (value : Option String) :
    Except Stop State :=
  match if slots then Slot.ofName? name else none, value with
  | some slot, some value => state.attach slot value
  | some slot, none => state.await slot
  | none, some _ => .error (.usage none)
  | none, none =>
    if name = "verbose" then state.setVerbose
    else if name = "help" then state.help
    else .error (.usage none)

/-- Whether the last option still waits for its value. -/
def awaits (state : State) : Bool :=
  match state.pending with
  | some (_, none) => true
  | _ => false

/-- Put the value in place that the last option waits for. -/
def answer (state : State) (word : String) : State :=
  { state with pending := state.pending.map fun (slot, _) => (slot, some word) }

end State

/-- The name of a long option and the value behind its equals sign. -/
def splitLong (body : List Char) : String × Option String :=
  let name := String.ofList (body.takeWhile (· != '='))
  match body.dropWhile (· != '=') with
  | _ :: value => (name, some (String.ofList value))
  | [] => (name, none)

/-- What a word looks like. -/
inductive Word where
  | separator
  | long (name : String) (value : Option String)
  | letters (row : List Char)
  | plain

/-- Tell what a word looks like. -/
def Word.of (word : String) : Word :=
  match word.toList with
  | ['-', '-'] => separator
  | '-' :: '-' :: body => let (name, value) := splitLong body; long name value
  | '-' :: c :: rest => letters (c :: rest)
  | _ => plain

/-- Read the words of a command. Where it takes no slots, it takes no input either; behind a
separator every word is a position. -/
def readWords (slots : Bool) : State → Bool → List String → Except Stop State
  | state, _, [] => state.settle
  | state, true, word :: rest =>
    if slots then do readWords slots (← state.setInput word) true rest else .error (.usage none)
  | state, false, word :: rest =>
    match Word.of word with
    | .separator => readWords slots state true rest
    | .long name value => do readWords slots (← state.long slots name value) false rest
    | .letters row => do readWords slots (← State.letters slots state row) false rest
    | .plain =>
      if state.awaits then readWords slots (state.answer word) false rest
      else if slots then do readWords slots (← state.setInput word) false rest
      else .error (.usage none)

/-- The names of the commands. -/
def commandNames : List String := ["translate", "plugins", "help"]

/-- Read the words after a request for help: the command that it is about. -/
def readHelp : List String → Stop
  | [] => .information ""
  | [name] => if commandNames.contains name then .information "" else .usage none
  | _ => .usage none

/-- Read a row of short options before the command. -/
def topLetters : Bool → List Char → Except Stop Bool
  | verbose, [] => .ok verbose
  | verbose, c :: rest =>
    if c = 'v' then if verbose then .error (.usage none) else topLetters true rest
    else if c = 'h' then .error (.information "")
    else if c = 'V' then .error (.information version)
    else .error (.usage none)

/-- Read the words up to the command, and the command. -/
def readTop : Bool → List String → Except Stop Command
  | _, [] => .error (.usage none)
  | verbose, word :: rest =>
    match Word.of word with
    | .separator => .error (.usage none)
    | .long name value =>
      if value.isSome then .error (.usage none)
      else if name = "verbose" then
        if verbose then .error (.usage none) else readTop true rest
      else if name = "help" then .error (.information "")
      else if name = "version" then .error (.information version)
      else .error (.usage none)
    | .letters row => do readTop (← topLetters verbose row) rest
    | .plain =>
      if word = "translate" then do
        pure (.translate (← readWords true {} false rest).request)
      else if word = "plugins" then do
        let _ ← readWords false {} false rest
        pure .plugins
      else if word = "help" then .error (readHelp rest)
      else .error (.usage none)

/-- Read the words of a command line. -/
def read (words : List String) : Except Stop Command :=
  readTop false words

end Schemata.CommandLine
