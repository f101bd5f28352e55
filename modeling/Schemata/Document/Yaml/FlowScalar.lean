import Schemata.Document.Yaml.Cursor
import Schemata.Text.Hexadecimal

/-!
# Plain and quoted scalars

A scalar is read in runs: the characters up to white space, then the white space, and so on until
something ends the scalar. White space between two runs is folded, see `Gap.text`.
-/

namespace Schemata.Yaml

/-- A scalar that was read, and the place after it. -/
structure Scanned where
  text : List Char
  cursor : Cursor
  /-- Whether the reading went beyond the line of the scalar. -/
  passedBreak : Bool := false

namespace Plain

/-- A character that ends a plain scalar inside brackets. -/
def isFlowEnd (c : Char) : Bool :=
  c == ',' || c == '[' || c == ']' || c == '{' || c == '}'

/-- One run of a plain scalar; `none` is a colon that brackets make ambiguous. -/
def run (inFlow : Bool) : List Char → Option (List Char)
  | [] => some []
  | c :: rest =>
    if isSpace c then some []
    else if inFlow && c == ':' && rest.head?.any (fun next => isFlowEnd next || next == '?') then
      none
    else if (c == ':' && startsApart rest) || (inFlow && isFlowEnd c) then some []
    else (c :: ·) <$> run inFlow rest

/-- Read a plain scalar that continues `text` after some white space. -/
def read (inFlow : Bool) (indentation : Nat) : Nat → List Char → Gap → Cursor → Option Scanned
  | 0, text, gap, cursor => some { text, cursor, passedBreak := gap.hasBreak }
  | fuel + 1, text, gap, cursor =>
    if cursor.atDocumentMark || cursor.sees (· == '#') then
      some { text, cursor, passedBreak := gap.hasBreak }
    else do
      let found ← run inFlow cursor.rest
      let (text, gap) :=
        if found.isEmpty then (text, gap) else (text ++ gap.text ++ found, Gap.empty)
      let cursor := cursor.advance found.length
      if cursor.sees isSpace then
        let (gap, cursor) ← gap.read (some indentation) cursor.rest.length cursor
        if !inFlow && cursor.column < indentation then
          some { text, cursor, passedBreak := gap.hasBreak }
        else read inFlow indentation fuel text gap cursor
      else some { text, cursor, passedBreak := gap.hasBreak }

end Plain

namespace Quoted

/-- One run between quotes: its characters, the length of its written form, and whether an escaped
line break ends it. -/
structure Run where
  chars : List Char := []
  length : Nat := 0
  escapedBreak : Bool := false

/-- Put a character in front that is written with `length` characters. -/
def Run.push (c : Char) (length : Nat) (run : Run) : Run :=
  { run with chars := c :: run.chars, length := length + run.length }

/-- One run between single quotes. -/
def singleRun : List Char → Run
  | '\'' :: '\'' :: rest => (singleRun rest).push '\'' 2
  | c :: rest => if isSpace c || c == '\'' then {} else (singleRun rest).push c 1
  | [] => {}

/-- The character of a one-letter escape. -/
def letter? (c : Char) : Option Char :=
  match c with
  | '0' => some '\x00'
  | 'a' => some '\x07'
  | 'b' => some '\x08'
  | 't' => some '\t'
  | '\t' => some '\t'
  | 'n' => some '\n'
  | 'v' => some '\x0b'
  | 'f' => some '\x0c'
  | 'r' => some '\r'
  | 'e' => some '\x1b'
  | ' ' => some ' '
  | '"' => some '"'
  | '/' => some '/'
  | '\\' => some '\\'
  | 'N' => some '\u0085'
  | '_' => some '\u00a0'
  | 'L' => some '\u2028'
  | 'P' => some '\u2029'
  | _ => none

/-- The character of a row of hexadecimal digits. -/
def char? (digits : List Char) : Option Char := do
  let code ← Text.hexNumber? digits
  if h : code.isValidChar then some (Char.ofNatAux code h) else none

/-- One run between double quotes; `none` is an escape that means nothing. -/
def doubleRun : List Char → Option Run
  | [] => some {}
  | '\\' :: [] => none
  | '\\' :: 'x' :: a :: b :: rest => do
    let c ← char? [a, b]
    Run.push c 4 <$> doubleRun rest
  | '\\' :: 'u' :: a :: b :: c :: d :: rest => do
    let c ← char? [a, b, c, d]
    Run.push c 6 <$> doubleRun rest
  | '\\' :: 'U' :: a :: b :: c :: d :: e :: f :: g :: h :: rest => do
    let c ← char? [a, b, c, d, e, f, g, h]
    Run.push c 10 <$> doubleRun rest
  | '\\' :: code :: rest =>
    if isBreak code then some { escapedBreak := true }
    else do
      let c ← letter? code
      Run.push c 2 <$> doubleRun rest
  | c :: rest =>
    if isSpace c || c == '"' then some {} else Run.push c 1 <$> doubleRun rest

/-- Read a quoted scalar whose opening quote was read. -/
def read (quote : Char) : Nat → List Char → Cursor → Option Scanned
  | 0, _, _ => none
  | fuel + 1, text, cursor =>
    if cursor.atDocumentMark || cursor.atEnd then none
    else do
      let run ← if quote = '\'' then some (singleRun cursor.rest) else doubleRun cursor.rest
      let text := text ++ run.chars
      let cursor := cursor.advance run.length
      let (gap, cursor) :=
        if run.escapedBreak then (Gap.breaks [] [], (cursor.advance 1).nextLine)
        else (Gap.empty, cursor)
      if cursor.char? = some quote then some { text, cursor := cursor.advance 1 }
      else
        let (gap, cursor) ← gap.read none cursor.rest.length cursor
        read quote fuel (text ++ gap.text) cursor

end Quoted

end Schemata.Yaml
