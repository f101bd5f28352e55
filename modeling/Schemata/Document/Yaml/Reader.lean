import Schemata.Document.Yaml.Node

/-!
# YAML documents

A text holds at most one document that is read. Directives may stand before it, and end marks after
it.
-/

namespace Schemata.Yaml

/-- What a text holds: the root, the nodes that numbers lead to, the size of the document, and the
fault of what follows the root. A text without a document has an empty root. -/
structure Document where
  root : Node
  node? : Nat → Option Node
  size : Nat
  after : Option Fault

namespace Document

/-- What the two handles stand for that need no directive. -/
def defaultHandles : List (String × String) :=
  [("!", "!"), ("!!", "tag:yaml.org,2002:")]

/-- Read directives: at most one version, of a known one, and each handle at most once. -/
def directives : Bool → List (String × String) → List Token → Option (List (String × String) × List Token)
  | versioned, handles, .version major minor :: rest =>
    if versioned || major ≠ 1 || (minor ≠ 1 && minor ≠ 2) then none
    else directives true handles rest
  | versioned, handles, .tagHandle handle lead :: rest =>
    if (handles.lookup handle).isSome then none
    else directives versioned (handles ++ [(handle, lead)]) rest
  | _, handles, rest => some (handles ++ defaultHandles, rest)

/-- Whether a token leaves a document without content. -/
def isBoundary : Token → Bool
  | .version _ _ | .tagHandle _ _ | .documentStart | .documentEnd | .streamEnd => true
  | _ => false

/-- A text that is at fault before its root. -/
def broken : Document :=
  { root := .broken .malformed, node? := fun _ => none, size := 0, after := none }

/-- The fault of the tokens after a document. -/
def trailing : List Token → Option Fault
  | .documentEnd :: rest => trailing rest
  | .streamEnd :: _ => none
  | _ => some .moreDocuments

/-- The fault of the tokens after a root. -/
def ending : List Token → Option Fault
  | [] => some .malformed
  | tokens => trailing tokens

/-- Read the root of a document. -/
def content (handles : List (String × String)) (explicit : Bool) (tokens : List Token) : Document :=
  let r : Reading := { tokens, handles }
  let (root, r) :=
    if explicit && tokens.head?.any isBoundary then (Node.empty, r.count 1)
    else Node.read (4 * tokens.length + 8) .block r
  { root, node? := r.node?, size := r.size, after := ending r.tokens }

/-- Read the document of a list of tokens. -/
def ofTokens (tokens : List Token) : Document :=
  match tokens with
  | [] => broken
  | .streamEnd :: _ => { root := .empty, node? := fun _ => none, size := 1, after := none }
  | token :: _ =>
    if token = .documentEnd || !isBoundary token then content defaultHandles false tokens
    else
      match directives false [] tokens with
      | some (handles, .documentStart :: rest) => content handles true rest
      | _ => broken

/-- Read the document of a text. -/
def read (text : List Char) : Document :=
  ofTokens (scan text)

end Document

end Schemata.Yaml
