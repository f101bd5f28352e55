import Schemata.Document.Value

/-!
# Writing JSON

`pretty` writes one item or member per line, two blanks deeper at each level; `compact` writes no
blanks at all. Quotes, backslashes and controls are escaped, every other character stands for
itself.
-/

namespace Schemata.Json

/-- A hexadecimal digit in lower case. -/
def hexDigit (n : Nat) : Char :=
  Nat.digitChar (n % 16)

/-- The written form of one character of a text. -/
def encodeChar (c : Char) : List Char :=
  if c = '"' then ['\\', '"']
  else if c = '\\' then ['\\', '\\']
  else if c = '\x08' then ['\\', 'b']
  else if c = '\x0c' then ['\\', 'f']
  else if c = '\n' then ['\\', 'n']
  else if c = '\r' then ['\\', 'r']
  else if c = '\t' then ['\\', 't']
  else if c.toNat < 0x20 then ['\\', 'u', '0', '0', hexDigit (c.toNat / 16), hexDigit c.toNat]
  else [c]

/-- A text between quotes. -/
def encode (text : String) : List Char :=
  '"' :: (text.toList.flatMap encodeChar ++ ['"'])

/-- A word of the format. -/
def writeFlag (value : Bool) : List Char :=
  if value then "true".toList else "false".toList

/-- The start of a new line at a depth. -/
def lineAt (depth : Nat) : List Char :=
  '\n' :: List.replicate (2 * depth) ' '

/-- The lines of a list or an object between its brackets, which stand together when there are
none. -/
def block (opening closing : Char) (depth : Nat) (parts : List (List Char)) : List Char :=
  if parts.isEmpty then [opening, closing]
  else
    opening :: ([','].intercalate (parts.map (lineAt (depth + 1) ++ ·)) ++ lineAt depth) ++ [closing]

mutual

/-- A value over several lines. -/
def prettyChars (depth : Nat) : Value → List Char
  | .null => "null".toList
  | .flag value => writeFlag value
  | .text content => encode content
  | .list items => block '[' ']' depth (prettyItems (depth + 1) items)
  | .object members => block '{' '}' depth (prettyMembers (depth + 1) members)

/-- The items of a list. -/
def prettyItems (depth : Nat) : List Value → List (List Char)
  | [] => []
  | item :: rest => prettyChars depth item :: prettyItems depth rest

/-- The members of an object. -/
def prettyMembers (depth : Nat) : List (String × Value) → List (List Char)
  | [] => []
  | (key, value) :: rest =>
    (encode key ++ [':', ' '] ++ prettyChars depth value) :: prettyMembers depth rest

end

mutual

/-- A value on one line. -/
def compactChars : Value → List Char
  | .null => "null".toList
  | .flag value => writeFlag value
  | .text content => encode content
  | .list items => '[' :: ([','].intercalate (compactItems items) ++ [']'])
  | .object members => '{' :: ([','].intercalate (compactMembers members) ++ ['}'])

/-- The items of a list. -/
def compactItems : List Value → List (List Char)
  | [] => []
  | item :: rest => compactChars item :: compactItems rest

/-- The members of an object. -/
def compactMembers : List (String × Value) → List (List Char)
  | [] => []
  | (key, value) :: rest => (encode key ++ ':' :: compactChars value) :: compactMembers rest

end

/-- The text of a value over several lines. -/
def pretty (value : Value) : String := String.ofList (prettyChars 0 value)

/-- The text of a value on one line. -/
def compact (value : Value) : String := String.ofList (compactChars value)

end Schemata.Json
