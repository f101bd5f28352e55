import Schemata.Document.Yaml.FlowScalar

/-!
# Block scalars

A block scalar is a header and the lines below it that are indented far enough. In a literal scalar
every line break stands for itself; in a folded one a break between two lines that start with no
blank is folded. The header says what happens to the breaks at the end.
-/

namespace Schemata.Yaml.Block

/-- What happens to the breaks at the end of the scalar. -/
inductive Chomping where
  | strip
  | clip
  | keep
  deriving DecidableEq, Repr

/-- The chomping of an indicator. -/
def chomping? (c : Char) : Option Chomping :=
  if c = '+' then some .keep else if c = '-' then some .strip else none

/-- The digit of an indentation indicator. -/
def digit? (c : Char) : Option Nat :=
  if c.isDigit then some (c.toNat - 0x30) else none

/-- An indentation indicator, if one is at the cursor; zero is at fault. -/
def readDigit (cursor : Cursor) : Option (Option Nat × Cursor) :=
  match cursor.char?.bind digit? with
  | none => some (none, cursor)
  | some 0 => none
  | some size => some (some size, cursor.advance 1)

/-- A chomping indicator, if one is at the cursor. -/
def readChomping (cursor : Cursor) : Option Chomping × Cursor :=
  match cursor.char?.bind chomping? with
  | none => (none, cursor)
  | some chomping => (some chomping, cursor.advance 1)

/-- The two indicators in either order. -/
def readIndicators (cursor : Cursor) : Option (Chomping × Option Nat × Cursor) := do
  match readChomping cursor with
  | (some chomping, cursor) =>
    let (size, cursor) ← readDigit cursor
    pure (chomping, size, cursor)
  | (none, cursor) =>
    let (size, cursor) ← readDigit cursor
    let (chomping, cursor) := if size.isSome then readChomping cursor else (none, cursor)
    pure (chomping.getD .clip, size, cursor)

/-- Go on to the line below the header. -/
def endHeader (cursor : Cursor) : Option Cursor :=
  let cursor := cursor.skipWhile isGap
  let cursor := if cursor.sees (· == '#') then cursor.skipWhile (!isBreak ·) else cursor
  if cursor.atEnd || cursor.sees isBreak then some cursor.nextLine else none

/-- Read empty lines and the indentation of the next one: the breaks, the largest indentation seen
and the place. An indentation of `none` is still to be found. A tab in the indentation is at
fault. -/
def emptyLines (indentation : Option Nat) :
    Nat → List Char → Nat → Cursor → Option (List Char × Nat × Cursor)
  | 0, breaks, widest, cursor => some (breaks, widest, cursor)
  | fuel + 1, breaks, widest, cursor =>
    let spaces := (cursor.rest.takeWhile (· == ' ')).length
    let cursor := cursor.advance
      (indentation.elim spaces fun limit => min spaces (limit - cursor.column))
    let widest := max widest cursor.column
    if indentation.all (cursor.column < ·) && cursor.sees (· == '\t') then none
    else if cursor.sees isBreak then
      emptyLines indentation fuel (breaks ++ cursor.breakText) widest cursor.nextLine
    else some (breaks, widest, cursor)

/-- The lines of a scalar so far. -/
structure Lines where
  text : List Char := []
  /-- The break after the last line. -/
  lastBreak : List Char := []
  /-- The breaks of the empty lines after it. -/
  breaks : List Char
  /-- Whether the last line starts with a blank. -/
  blankStart : Bool := false

/-- The lines with their breaks taken over, before a line that starts with a blank or not. -/
def Lines.join (folded blank : Bool) (lines : Lines) : List Char :=
  let joint :=
    if folded && lines.lastBreak == ['\n'] && !lines.blankStart && !blank then
      if lines.breaks.isEmpty then [' '] else []
    else lines.lastBreak
  lines.text ++ joint ++ lines.breaks

/-- Read the lines that stand at the indentation. -/
def readLines (folded : Bool) (indentation : Nat) : Nat → Lines → Cursor → Option (Lines × Cursor)
  | 0, lines, cursor => some (lines, cursor)
  | fuel + 1, lines, cursor =>
    if cursor.column = indentation ∧ !cursor.atEnd then do
      let blank := cursor.sees isGap
      let found := cursor.rest.takeWhile (!isBreak ·)
      let after := cursor.advance found.length
      let (breaks, _, next) ← emptyLines (some indentation) (after.rest.length + 1) [] 0 after.nextLine
      readLines folded indentation fuel
        { text := lines.join folded blank ++ found
          lastBreak := after.breakText
          breaks
          blankStart := blank }
        next
    else some (lines, cursor)

/-- The text of the scalar. -/
def Lines.chomp (lines : Lines) : Chomping → List Char
  | .strip => lines.text
  | .clip => lines.text ++ lines.lastBreak
  | .keep => lines.text ++ lines.lastBreak ++ lines.breaks

/-- Read a block scalar whose first indicator was read, inside a block at `parent`, which is
negative at the top. -/
def read (folded : Bool) (parent : Int) (cursor : Cursor) : Option Scanned := do
  let (chomping, size, cursor) ← readIndicators cursor
  let cursor ← endHeader cursor
  let given := size.map fun size => (max parent 0).toNat + size
  let (breaks, widest, cursor) ← emptyLines given (cursor.rest.length + 1) [] 0 cursor
  let indentation := given.getD (max (max widest (parent + 1).toNat) 1)
  let (lines, cursor) ← readLines folded indentation (cursor.rest.length + 1) { breaks } cursor
  pure { text := lines.chomp chomping, cursor }

end Schemata.Yaml.Block
