/-!
# Places in a YAML text

A cursor is the text that is still to be read together with its place. Line breaks are of five
kinds; a carriage return and a line feed that stand together are one break.
-/

namespace Schemata.Yaml

/-- A line break. -/
def isBreak (c : Char) : Bool :=
  c == '\n' || c == '\r' || c == '\u0085' || c == '\u2028' || c == '\u2029'

/-- A blank within a line. -/
def isGap (c : Char) : Bool :=
  c == ' ' || c == '\t'

/-- A blank or a line break. -/
def isSpace (c : Char) : Bool :=
  isGap c || isBreak c

/-- Whether a blank, a line break or the end stands first. -/
def startsApart : List Char → Bool
  | [] => true
  | c :: _ => isSpace c

/-- A character of names. -/
def isNameChar (c : Char) : Bool :=
  c.isAlphanum || c == '_' || c == '-'

/-- A character that a text may hold. -/
def isAllowed (c : Char) : Bool :=
  let n := c.toNat
  n == 0x09 || n == 0x0a || n == 0x0d || (0x20 ≤ n && n ≤ 0x7e) || n == 0x85 ||
    (0xa0 ≤ n && n ≤ 0xd7ff) || (0xe000 ≤ n && n ≤ 0xfffd) || 0x10000 ≤ n

/-- The mark that may stand at the start of a text. -/
def byteOrderMark : Char := '\ufeff'

/-- What is left of a text, and where it starts. -/
structure Cursor where
  rest : List Char
  index : Nat := 0
  line : Nat := 0
  column : Nat := 0
  deriving DecidableEq, Repr

namespace Cursor

/-- Go on by some characters of the same line. -/
def advance (cursor : Cursor) (count : Nat) : Cursor :=
  { cursor with
    rest := cursor.rest.drop count
    index := cursor.index + count
    column := cursor.column + count }

/-- Go on over the characters of a class. -/
def skipWhile (cursor : Cursor) (p : Char → Bool) : Cursor :=
  cursor.advance (cursor.rest.takeWhile p).length

/-- The character at the cursor. -/
def char? (cursor : Cursor) : Option Char := cursor.rest.head?

/-- Whether a character of the class is at the cursor. -/
def sees (cursor : Cursor) (p : Char → Bool) : Bool :=
  cursor.rest.head?.any p

/-- Whether the end is at the cursor. -/
def atEnd (cursor : Cursor) : Bool := cursor.rest.isEmpty

/-- Go on over a line break, if one is at the cursor. -/
def nextLine (cursor : Cursor) : Cursor :=
  match cursor.rest with
  | '\r' :: '\n' :: rest =>
    { rest, index := cursor.index + 2, line := cursor.line + 1, column := 0 }
  | c :: rest =>
    if isBreak c then { rest, index := cursor.index + 1, line := cursor.line + 1, column := 0 }
    else cursor
  | [] => cursor

/-- What the break at the cursor adds to a scalar: the two separators stand for themselves, any
other break for a line feed. -/
def breakText (cursor : Cursor) : List Char :=
  match cursor.rest with
  | c :: _ =>
    if c = '\u2028' ∨ c = '\u2029' then [c] else if isBreak c then ['\n'] else []
  | [] => []

/-- Whether a line starts here with three characters that stand apart. -/
def atMark (cursor : Cursor) (c : Char) : Bool :=
  cursor.column == 0 &&
    match cursor.rest with
    | x :: y :: z :: rest => x == c && y == c && z == c && startsApart rest
    | _ => false

/-- Whether a document starts or ends here. -/
def atDocumentMark (cursor : Cursor) : Bool :=
  cursor.atMark '-' || cursor.atMark '.'

end Cursor

/-- White space inside a scalar that has not been taken over yet. -/
inductive Gap where
  /-- Blanks within a line. -/
  | blanks (chars : List Char)
  /-- A first line break and the breaks after it; blanks around them do not count. -/
  | breaks (first others : List Char)
  deriving DecidableEq, Repr

namespace Gap

/-- No white space. -/
def empty : Gap := blanks []

/-- What the white space adds to a scalar: a single line feed is folded to a blank, and of several
the first is dropped. -/
def text : Gap → List Char
  | blanks chars => chars
  | breaks first others =>
    if first = ['\n'] then if others.isEmpty then [' '] else others else first ++ others

/-- Whether a line break was passed. -/
def hasBreak : Gap → Bool
  | blanks _ => false
  | breaks _ _ => true

/-- Read on over white space. With an indentation given, a tab to the left of it is at fault. -/
def read (indentation : Option Nat) : Nat → Gap → Cursor → Option (Gap × Cursor)
  | 0, gap, cursor => some (gap, cursor)
  | fuel + 1, gap, cursor =>
    match cursor.rest with
    | [] => some (gap, cursor)
    | c :: _ =>
      if isGap c then
        match gap with
        | blanks chars => read indentation fuel (blanks (chars ++ [c])) (cursor.advance 1)
        | breaks _ _ =>
          if c = '\t' ∧ indentation.any (cursor.column < ·) then none
          else read indentation fuel gap (cursor.advance 1)
      else if isBreak c then
        let added := cursor.breakText
        match gap with
        | blanks _ => read indentation fuel (breaks added []) cursor.nextLine
        | breaks first others =>
          read indentation fuel (breaks first (others ++ added)) cursor.nextLine
      else some (gap, cursor)

end Gap

end Schemata.Yaml
