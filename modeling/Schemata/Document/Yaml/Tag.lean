import Schemata.Document.Yaml.Cursor
import Schemata.Document.Yaml.Token
import Schemata.Text.Hexadecimal

/-!
# Names of nodes: anchors, tags and directives

The readers of this module start at the indicator and end at the place after the name. `none` is a
fault.
-/

namespace Schemata.Yaml

/-- The name characters at a place. -/
def readName (cursor : Cursor) : List Char × Cursor :=
  (cursor.rest.takeWhile isNameChar, cursor.skipWhile isNameChar)

/-- Whether a character may follow the name of an anchor. -/
def endsAnchor (c : Char) : Bool :=
  isSpace c || ['?', ':', ',', ']', '}', '%', '@', '\x60'].contains c

/-- The name of an anchor or of a reference to one. -/
def readAnchor (cursor : Cursor) : Option (String × Cursor) :=
  let (name, after) := readName (cursor.advance 1)
  if name.isEmpty || !(after.atEnd || after.sees endsAnchor) then none
  else some (String.ofList name, after)

namespace Tag

/-- A character of a tag; more are allowed between angle brackets. -/
def isTagChar (enclosed : Bool) (c : Char) : Bool :=
  isNameChar c ||
    [';', '/', '?', ':', '@', '&', '=', '+', '$', '.', '!', '~', '*', '\'', '(', ')'].contains c ||
    (enclosed && [',', '[', ']'].contains c)

/-- An escaped byte. -/
def byte? : List Char → Option (Nat × List Char)
  | '%' :: a :: b :: rest => (·, rest) <$> Text.hexNumber? [a, b]
  | _ => none

/-- The escaped bytes that continue a character. -/
def trail : Nat → Nat → List Char → Option (Nat × List Char)
  | 0, code, text => some (code, text)
  | count + 1, code, text => do
    let (byte, rest) ← byte? text
    if byte / 64 = 2 then trail count (code * 64 + byte % 64) rest else none

/-- An escaped character: its first byte says how many follow. -/
def escaped? (text : List Char) : Option (Char × List Char) := do
  let (lead, rest) ← byte? text
  let (count, code) ←
    if lead < 0x80 then some (0, lead)
    else if lead / 32 = 6 then some (1, lead % 32)
    else if lead / 16 = 14 then some (2, lead % 16)
    else if lead / 8 = 30 then some (3, lead % 8)
    else none
  let (code, rest) ← trail count code rest
  pure (Char.ofNat code, rest)

/-- The characters of a tag, escapes resolved, and what follows them. -/
def scanUri (enclosed : Bool) : Nat → List Char → Option (List Char × List Char)
  | 0, text => some ([], text)
  | fuel + 1, text =>
    match text with
    | [] => some ([], [])
    | c :: rest =>
      if c = '%' then do
        let (meant, rest) ← escaped? text
        let (more, rest) ← scanUri enclosed fuel rest
        pure (meant :: more, rest)
      else if isTagChar enclosed c then do
        let (more, rest) ← scanUri enclosed fuel rest
        pure (c :: more, rest)
      else some ([], text)

/-- The characters of a tag at a place. -/
def readUri (enclosed : Bool) (cursor : Cursor) : Option (List Char × Cursor) := do
  let (found, rest) ← scanUri enclosed cursor.rest.length cursor.rest
  pure (found, cursor.advance (cursor.rest.length - rest.length))

/-- A handle: a mark, name characters, and a second mark if there is one. -/
def readHandle (cursor : Cursor) : List Char × Cursor :=
  let (name, after) := readName (cursor.advance 1)
  if after.sees (· == '!') then ('!' :: name ++ ['!'], after.advance 1) else ('!' :: name, after)

/-- A tag: verbatim between angle brackets, or after a handle of two marks, or after one mark. A
single mark alone is a tag of its own. -/
def readParts (cursor : Cursor) : Option (List Char × List Char × Cursor) :=
  if (cursor.advance 1).sees (· == '<') then do
    let (rest, after) ← readUri true (cursor.advance 2)
    if rest.isEmpty || !after.sees (· == '>') then none else some ([], rest, after.advance 1)
  else
    let (handle, after) := readHandle cursor
    if 2 ≤ handle.length && handle.getLast? == some '!' then do
      let (rest, after) ← readUri false after
      if rest.isEmpty then none else some (handle, rest, after)
    else do
      let (more, after) ← readUri false after
      match handle.tail ++ more with
      | [] => some ([], ['!'], after)
      | rest => some (['!'], rest, after)

/-- A tag, which must stand apart from what follows. -/
def read (inFlow : Bool) (cursor : Cursor) : Option (Token × Cursor) := do
  let (handle, rest, after) ← readParts cursor
  if startsApart after.rest || (inFlow && after.sees (· == ',')) then
    some (.tag (String.ofList handle) (String.ofList rest), after)
  else none

end Tag

namespace Directive

/-- The digits of a version, at most nine. -/
def readNumber (cursor : Cursor) : Option (Nat × Cursor) :=
  let digits := cursor.rest.takeWhile Char.isDigit
  if digits.isEmpty || 9 < digits.length then none
  else
    some (digits.foldl (fun sum c => sum * 10 + (c.toNat - 0x30)) 0, cursor.advance digits.length)

/-- The two numbers of a version. -/
def readVersion (cursor : Cursor) : Option (Token × Cursor) := do
  let (major, cursor) ← readNumber (cursor.skipWhile isGap)
  if cursor.sees (· == '.') then
    let (minor, cursor) ← readNumber (cursor.advance 1)
    some (.version major minor, cursor)
  else none

/-- A handle and what it stands for. -/
def readTagHandle (cursor : Cursor) : Option (Token × Cursor) := do
  let cursor := cursor.skipWhile isGap
  if !cursor.sees (· == '!') then none
  else
    let (handle, after) := Tag.readHandle cursor
    if (handle.length ≠ 1 && handle.getLast? != some '!') || !after.sees isGap then none
    else
      let (lead, after) ← Tag.readUri true (after.skipWhile isGap)
      if lead.isEmpty || !startsApart after.rest then none
      else some (.tagHandle (String.ofList handle) (String.ofList lead), after)

/-- A directive, with the line that it stands on. -/
def read (cursor : Cursor) : Option (Token × Cursor) := do
  let (name, after) := readName (cursor.advance 1)
  if !startsApart after.rest then none
  else
    let (token, after) ←
      if name = "YAML".toList then readVersion after
      else if name = "TAG".toList then readTagHandle after
      else none
    let after := after.skipWhile isGap
    let after := if after.sees (· == '#') then after.skipWhile (!isBreak ·) else after
    if after.atEnd || after.sees isBreak then some (token, after.nextLine) else none

end Directive

end Schemata.Yaml
