import Schemata.Document.Json.Literal
import Schemata.Document.Json.Numeral
import Schemata.Document.Tree

/-!
# Reading JSON

From a text to a document tree. A leaf keeps both what it means to a decoder and what it means when
it is passed over, because some faults count only for decoded values.
-/

namespace Schemata.Json

/-- A scalar of a JSON document. -/
inductive Leaf where
  | null
  | flag (value : Bool)
  | number (value : Except Fault Number)
  | text (content : Except Fault String)
  /-- The document is at fault here: when the place is decoded, and when it is passed over. -/
  | broken (decoded passed : Fault)

/-- A place where the document is at fault in either case. -/
def broken (fault : Fault) : Tree Leaf .value := .leaf (.broken fault fault)

/-- White space between tokens. -/
def isSpace (c : Char) : Bool :=
  c == ' ' || c == '\n' || c == '\t' || c == '\r'

/-- The text from the next token on. -/
def skipSpace (text : List Char) : List Char :=
  text.dropWhile isSpace

/-- A value, and what follows it unless it is at fault. -/
abbrev Reading (shape : Shape) := Tree Leaf shape × Option (List Char)

/-- The rest of a word. -/
def word (value : Leaf) : List Char → List Char → Reading .value
  | [], rest => (.leaf value, some rest)
  | _ :: _, [] => (broken .endInValue, none)
  | expected :: more, c :: rest =>
    if c = expected then word value more rest else (broken .expectedWord, none)

/-- A literal whose opening quote was read. -/
def literal (text : List Char) : Reading .value :=
  let (pieces, ending) := Literal.scan text
  let content := Literal.denote ending pieces
  match ending, Literal.Ending.fault? ending with
  | .closed rest, _ => (.leaf (.text (String.ofList <$> content)), some rest)
  | _, some passed =>
    match content with
    | .error decoded => (.leaf (.broken decoded passed), none)
    | .ok _ => (broken passed, none)
  | _, none => (broken .endInText, none)

/-- A value other than a list, an object or a text. -/
def scalar (first : Char) (rest : List Char) : Reading .value :=
  if first = 'n' then word .null "ull".toList rest
  else if first = 't' then word (.flag true) "rue".toList rest
  else if first = 'f' then word (.flag false) "alse".toList rest
  else if first = '-' ∨ (Numeral.digit? first).isSome then
    match Numeral.scan (first :: rest) with
    | .ok (numeral, after) => (.leaf (.number numeral.value), some after)
    | .error (decoded, passed) => (.leaf (.broken decoded passed), none)
  else (broken .expectedValue, none)

/-- A run of items that ends at a fault. -/
def brokenItems (decoded passed : Fault) : Reading .items :=
  (.item (.leaf (.broken decoded passed)) .noItems, none)

/-- A run of members that ends at a fault in place of a key. -/
def brokenMembers (decoded passed : Fault) : Reading .members :=
  (.member (.leaf (.broken decoded passed)) (.leaf (.broken decoded passed)) .noMembers, none)

mutual

/-- Read one value. The fuel bounds the depth of the recursion. -/
def value : Nat → List Char → Reading .value
  | 0, _ => (broken .expectedValue, none)
  | fuel + 1, text =>
    match skipSpace text with
    | [] => (broken .endInValue, none)
    | c :: rest =>
      if c = '[' then
        let (all, after) := items fuel true rest
        (.list all, after)
      else if c = '{' then
        let (all, after) := members fuel true rest
        (.object all, after)
      else if c = '"' then literal rest
      else scalar c rest

/-- Read one item and those after it. -/
def item : Nat → List Char → Reading .items
  | 0, _ => brokenItems .expectedValue .expectedValue
  | fuel + 1, text =>
    match value fuel text with
    | (head, none) => (.item head .noItems, none)
    | (head, some after) =>
      let (others, last) := items fuel false after
      (.item head others, last)

/-- Read the items up to the closing bracket. -/
def items : Nat → Bool → List Char → Reading .items
  | 0, _, _ => brokenItems .expectedValue .expectedValue
  | fuel + 1, first, text =>
    match skipSpace text with
    | [] => brokenItems .endInList .endInList
    | c :: rest =>
      if c = ']' then (.noItems, some rest)
      else if first then item fuel (c :: rest)
      else if c = ',' then
        match skipSpace rest with
        | [] => brokenItems .endInValue .endInValue
        | next :: more =>
          if next = ']' then brokenItems .trailingComma .expectedValue
          else item fuel (next :: more)
      else brokenItems .expectedCommaOrBracket .expectedCommaOrBracket

/-- Read one member, whose key's quote was read, and those after it. -/
def member : Nat → List Char → Reading .members
  | 0, _ => brokenMembers .expectedValue .expectedValue
  | fuel + 1, text =>
    match literal text with
    | (key, none) => (.member key key .noMembers, none)
    | (key, some afterKey) =>
      match skipSpace afterKey with
      | [] => (.member key (broken .endInObject) .noMembers, none)
      | c :: rest =>
        if c = ':' then
          match value fuel rest with
          | (content, none) => (.member key content .noMembers, none)
          | (content, some after) =>
            let (others, last) := members fuel false after
            (.member key content others, last)
        else (.member key (broken .expectedColon) .noMembers, none)

/-- Read the members up to the closing brace. -/
def members : Nat → Bool → List Char → Reading .members
  | 0, _, _ => brokenMembers .expectedValue .expectedValue
  | fuel + 1, first, text =>
    match skipSpace text with
    | [] => brokenMembers .endInObject .endInObject
    | c :: rest =>
      if c = '}' then (.noMembers, some rest)
      else if first then
        if c = '"' then member fuel rest else brokenMembers .keyNotText .keyNotText
      else if c = ',' then
        match skipSpace rest with
        | [] => brokenMembers .endInValue .endInObject
        | next :: more =>
          if next = '"' then member fuel more
          else if next = '}' then brokenMembers .trailingComma .keyNotText
          else brokenMembers .keyNotText .keyNotText
      else brokenMembers .expectedCommaOrBrace .expectedCommaOrBrace

end

/-- What a text holds: its value, and the fault of what follows the value. -/
structure Document where
  root : Tree Leaf .value
  after : Option Fault

/-- Read a whole text. -/
def read (text : List Char) : Document :=
  match value (3 * text.length + 3) text with
  | (root, none) => { root, after := none }
  | (root, some rest) =>
    { root, after := if (skipSpace rest).isEmpty then none else some .trailingCharacters }

end Schemata.Json
