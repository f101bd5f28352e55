import Schemata.Document.Value
import Schemata.Document.Yaml.Cursor
import Schemata.Document.Yaml.Scalar

/-!
# Writing YAML

A document is written in blocks: a member per line, two blanks deeper at each level, the dashes of a
list below the key of the list. How a text is written depends on its characters alone.

A text with line feeds is written literally, one line below the other. Any other text is written
plain unless it would then be read as something else, and between single quotes otherwise. What
neither of these can carry is written between double quotes with escapes.
-/

namespace Schemata.Yaml

/-- How a text is written. -/
inductive Writing where
  | plain
  | single
  | double
  | literal
  deriving DecidableEq, Repr

namespace Writing

/-- A character that may be written as it is. -/
def isPrintable (c : Char) : Bool :=
  let n := c.toNat
  n == 0x0a || (0x20 ≤ n && n ≤ 0x7e) || (0xa0 ≤ n && n ≤ 0xd7ff) ||
    (0xe000 ≤ n && n ≤ 0xfffd && n != 0xfeff) || 0x10000 ≤ n

/-- Whether a character of the first class stands directly before one of the second. -/
def meets (p q : Char → Bool) : List Char → Bool
  | a :: b :: rest => (p a && q b) || meets p q (b :: rest)
  | _ => false

/-- A character that means something at the start of a scalar. -/
def isOpening (c : Char) : Bool :=
  ['#', ',', '[', ']', '{', '}', '&', '*', '!', '|', '>', '\'', '"', '%', '@', '\x60'].contains c

/-- Whether the start of a text means something in a document. -/
def startMeans : List Char → Bool
  | '-' :: '-' :: '-' :: _ => true
  | '.' :: '.' :: '.' :: _ => true
  | c :: rest => isOpening c || ((c == '?' || c == ':' || c == '-') && startsApart rest)
  | [] => false

/-- Whether a colon or a hash inside a text means something in a document. -/
def innerMeans : List Char → Bool
  | a :: b :: rest =>
    (b == ':' && startsApart rest) || (b == '#' && isSpace a) || innerMeans (b :: rest)
  | _ => false

/-- Whether a text may stand without quotes. -/
def allowsPlain (text : List Char) : Bool :=
  !(startMeans text || innerMeans text || text.head?.any (· == ' ') || text.getLast?.any (· == ' ') ||
    text.any isBreak || !text.all isPrintable)

/-- Whether a text may stand between single quotes. -/
def allowsSingle (text : List Char) : Bool :=
  text.all isPrintable && !meets (· == ' ') isBreak text && !meets isBreak (· == ' ') text

/-- Whether a text may stand literally. -/
def allowsLiteral (text : List Char) : Bool :=
  text.all isPrintable && !meets (· == ' ') isBreak text && !text.getLast?.any (· == ' ')

/-- Whether a text would be read as something other than a text, or is a padded number. -/
def isAmbiguous (text : List Char) : Bool :=
  match Scalar.meaning (String.ofList text) with
  | .text => Scalar.isPadded (Scalar.unsigned text)
  | _ => true

/-- How a text is written. -/
def of (text : List Char) : Writing :=
  if text.contains '\n' then if allowsLiteral text then literal else double
  else if !isAmbiguous text && allowsPlain text then plain
  else if allowsSingle text then single
  else double

/-- A hexadecimal digit in upper case. -/
def hexDigit (n : Nat) : Char :=
  (Nat.digitChar (n % 16)).toUpper

/-- The last `count` hexadecimal digits of a number. -/
def hexDigits : Nat → Nat → List Char
  | 0, _ => []
  | count + 1, n => hexDigits count (n / 16) ++ [hexDigit n]

/-- The written form of one character between double quotes. -/
def escape (c : Char) : List Char :=
  if c = '"' then ['\\', '"']
  else if c = '\\' then ['\\', '\\']
  else if isPrintable c && !isBreak c then [c]
  else if c = '\x00' then ['\\', '0']
  else if c = '\x07' then ['\\', 'a']
  else if c = '\x08' then ['\\', 'b']
  else if c = '\t' then ['\\', 't']
  else if c = '\n' then ['\\', 'n']
  else if c = '\x0b' then ['\\', 'v']
  else if c = '\x0c' then ['\\', 'f']
  else if c = '\r' then ['\\', 'r']
  else if c = '\x1b' then ['\\', 'e']
  else if c = '\u0085' then ['\\', 'N']
  else if c = '\u2028' then ['\\', 'L']
  else if c = '\u2029' then ['\\', 'P']
  else if c.toNat ≤ 0xff then '\\' :: 'x' :: hexDigits 2 c.toNat
  else if c.toNat ≤ 0xffff then '\\' :: 'u' :: hexDigits 4 c.toNat
  else '\\' :: 'U' :: hexDigits 8 c.toNat

/-- Blanks up to a column. -/
def blanks (indent : Nat) : List Char := List.replicate indent ' '

/-- The lines of a text, each indented that is not empty; `fresh` says that a line starts. -/
def lines (write : Char → List Char) (indent : Nat) : Bool → List Char → List Char
  | _, [] => []
  | fresh, c :: rest =>
    if isBreak c then c :: lines write indent true rest
    else (if fresh then blanks indent else []) ++ write c ++ lines write indent false rest

/-- A character between single quotes. -/
def singleChar (c : Char) : List Char :=
  if c = '\'' then ['\'', '\''] else [c]

/-- What a literal text has after its indicator: a digit when the first line does not show the
indentation, and a sign unless the text ends with one break. -/
def hints (text : List Char) : List Char :=
  let size := if text.head?.any fun c => c == ' ' || isBreak c then ['2'] else []
  let chomping := match text.reverse with
    | [] => ['-']
    | [c] => if isBreak c then ['+'] else ['-']
    | c :: before :: _ => if !isBreak c then ['-'] else if isBreak before then ['+'] else []
  size ++ chomping

/-- The written form of a text whose further lines are indented by `indent`. -/
def render (indent : Nat) (text : List Char) : List Char :=
  match of text with
  | plain => text
  | single =>
    let last := if text.getLast?.any isBreak then blanks indent else []
    '\'' :: (lines singleChar indent false text ++ last ++ ['\''])
  | double => '"' :: (text.flatMap escape ++ ['"'])
  | literal => '|' :: hints text ++ '\n' :: lines (fun c => [c]) indent true text

end Writing

/-- A line with its end, which a literal text may have already. -/
def endLine (line : List Char) : List Char :=
  if line.getLast?.any isBreak then line else line ++ ['\n']

mutual

/-- What follows the colon of a member at an indentation. -/
def writeMember (indent : Nat) : Value → List Char
  | .null => " null\n".toList
  | .flag value => if value then " true\n".toList else " false\n".toList
  | .text content => endLine (' ' :: Writing.render (indent + 2) content.toList)
  | .list [] => " []\n".toList
  | .list items => '\n' :: writeItems indent items
  | .object [] => " {}\n".toList
  | .object members => '\n' :: writeMembers (Writing.blanks (indent + 2)) (indent + 2) members

/-- The items of a list at an indentation. -/
def writeItems (indent : Nat) : List Value → List Char
  | [] => []
  | item :: rest =>
    writeItem (Writing.blanks indent ++ ['-']) indent item ++ writeItems indent rest

/-- One item of a list after its dash. -/
def writeItem (lead : List Char) (indent : Nat) : Value → List Char
  | .null => lead ++ " null\n".toList
  | .flag value => lead ++ if value then " true\n".toList else " false\n".toList
  | .text content => lead ++ endLine (' ' :: Writing.render (indent + 2) content.toList)
  | .list [] => lead ++ " []\n".toList
  | .list (first :: rest) =>
    writeItem (lead ++ [' ', '-']) (indent + 2) first ++ writeItems (indent + 2) rest
  | .object [] => lead ++ " {}\n".toList
  | .object members => writeMembers (lead ++ [' ']) (indent + 2) members

/-- The members of an object at an indentation; `lead` stands before the first one. The keys are
words. -/
def writeMembers (lead : List Char) (indent : Nat) : List (String × Value) → List Char
  | [] => []
  | (key, value) :: rest =>
    lead ++ key.toList ++ ':' :: writeMember indent value ++
      writeMembers (Writing.blanks indent) indent rest

end

/-- The document of an object. -/
def write : Value → String
  | .object members => String.ofList (writeMembers [] 0 members)
  | other => String.ofList (writeItem [] 0 other)

end Schemata.Yaml
