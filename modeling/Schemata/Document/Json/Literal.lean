import Schemata.Document.Json.Fault
import Schemata.Text.Hexadecimal

/-!
# Text literals

A text literal is read in two stages. `scan` splits what stands between the quotes into pieces,
characters and numbered units, and finds where the literal ends. `denote` joins the pieces to a
text: units that are halves of a pair must come as a pair. A literal that is passed over is only
scanned.
-/

namespace Schemata.Json

/-- One piece of a literal. -/
inductive Piece where
  /-- A character, written as it is or by a one-letter escape. -/
  | char (c : Char)
  /-- A four-digit escape. -/
  | unit (value : Nat)
  deriving DecidableEq, Repr

/-- How the pieces of a literal end. -/
inductive Ending where
  /-- At the closing quote, with what follows it. -/
  | closed (rest : List Char)
  /-- At the end of the document. -/
  | cut
  /-- At a control character. -/
  | control
  /-- At an escape with an unknown letter. -/
  | badLetter
  /-- At a four-digit escape without four digits. -/
  | badDigits
  deriving DecidableEq, Repr

namespace Literal

/-- The character of a one-letter escape. -/
def letter? (c : Char) : Option Char :=
  match c with
  | '"' => some '"'
  | '\\' => some '\\'
  | '/' => some '/'
  | 'b' => some '\x08'
  | 'f' => some '\x0c'
  | 'n' => some '\n'
  | 'r' => some '\r'
  | 't' => some '\t'
  | _ => none

/-- Whether fewer than four bytes are left. -/
def endsWithinFour (rest : List Char) : Bool :=
  rest.foldr (fun c size => c.utf8Size + size) 0 < 4

/-- Put a piece in front. -/
def push (piece : Piece) (scanned : List Piece × Ending) : List Piece × Ending :=
  (piece :: scanned.1, scanned.2)

/-- Split a literal whose opening quote was read. -/
def scan : List Char → List Piece × Ending
  | [] => ([], .cut)
  | '"' :: rest => ([], .closed rest)
  | '\\' :: [] => ([], .cut)
  | '\\' :: 'u' :: a :: b :: c :: d :: rest =>
    match Text.hexNumber? [a, b, c, d] with
    | some value => push (.unit value) (scan rest)
    | none => ([], .badDigits)
  | '\\' :: 'u' :: rest => ([], if endsWithinFour rest then .cut else .badDigits)
  | '\\' :: c :: rest =>
    match letter? c with
    | some meant => push (.char meant) (scan rest)
    | none => ([], .badLetter)
  | c :: rest =>
    if c.toNat < 0x20 then ([], .control) else push (.char c) (scan rest)

/-- The fault of a literal that is passed over. -/
def Ending.fault? : Ending → Option Fault
  | .closed _ => none
  | .cut => some .endInText
  | .control => some .controlCharacter
  | .badLetter => some .invalidEscape
  | .badDigits => some .invalidEscape

/-- Whether a unit is the first half of a pair. -/
def isLeading (unit : Nat) : Bool := 0xd800 ≤ unit && unit ≤ 0xdbff

/-- Whether a unit is the second half of a pair. -/
def isTrailing (unit : Nat) : Bool := 0xdc00 ≤ unit && unit ≤ 0xdfff

/-- The character of a pair. -/
def pair (leading trailing : Nat) : Char :=
  Char.ofNat ((leading - 0xd800) * 0x400 + (trailing - 0xdc00) + 0x10000)

/-- The fault of a first half with nothing after it. -/
def afterLeading (ending : Ending) : Fault :=
  match ending with
  | .cut => .endInText
  | .badDigits => .invalidEscape
  | _ => .escapeEnds

/-- The text that the pieces of a literal stand for, or the first fault. -/
def denote (ending : Ending) : List Piece → Except Fault (List Char)
  | [] =>
    match Ending.fault? ending with
    | none => .ok []
    | some fault => .error fault
  | .char c :: rest => (c :: ·) <$> denote ending rest
  | .unit value :: rest =>
    if isTrailing value then .error .loneSurrogate
    else if isLeading value then
      match rest with
      | [] => .error (afterLeading ending)
      | .char _ :: _ => .error .escapeEnds
      | .unit other :: more =>
        if isTrailing other then (pair value other :: ·) <$> denote ending more
        else .error .loneSurrogate
    else (Char.ofNat value :: ·) <$> denote ending rest

end Literal

end Schemata.Json
