import Schemata.Document.Json.Fault
import Schemata.Text.Decimal

/-!
# Numerals

A numeral is scanned into its digits. Its value is worked out only where a message has to show it:
a natural number or a negative one of at most 64 bits, else a double. The double is the product or
quotient of the leading digits that fit into 64 bits and a power of ten, each rounded, which need
not be the double nearest to the decimal.
-/

namespace Schemata.Json

/-- A scanned numeral. -/
structure Numeral where
  negative : Bool
  whole : List Nat
  /-- The digits after the point, none when there is no point. -/
  fraction : List Nat := []
  /-- The sign and the digits of the exponent. -/
  exponent : Option (Bool × List Nat) := none
  deriving DecidableEq, Repr

/-- The value of a numeral. -/
inductive Number where
  | natural (value : Nat)
  /-- Minus a positive number. -/
  | negative (value : Nat)
  | real (value : Float)

namespace Numeral

/-- The value of a decimal digit. -/
def digit? (c : Char) : Option Nat :=
  if '0' ≤ c ∧ c ≤ '9' then some (c.toNat - 0x30) else none

/-- The digits a text starts with, and the rest. -/
def digits : List Char → List Nat × List Char
  | [] => ([], [])
  | c :: rest =>
    match digit? c with
    | some value => let (more, after) := digits rest; (value :: more, after)
    | none => ([], c :: rest)

/-- The fault of a numeral that breaks off: at the end of the document it is only a fault of
numerals that are passed over. The first is that of a decoded numeral. -/
def breakOff (rest : List Char) : Fault × Fault :=
  (if rest.isEmpty then .endInValue else .invalidNumber, .invalidNumber)

/-- The exponent, if one follows. -/
def scanExponent (numeral : Numeral) (text : List Char) :
    Except (Fault × Fault) (Numeral × List Char) :=
  match text with
  | mark :: rest =>
    if mark = 'e' ∨ mark = 'E' then
      let (down, rest) : Bool × List Char := match rest with
        | '+' :: after => (false, after)
        | '-' :: after => (true, after)
        | _ => (false, rest)
      match digits rest with
      | ([], after) => .error (breakOff after)
      | (found, after) => .ok ({ numeral with exponent := some (down, found) }, after)
    else .ok (numeral, text)
  | [] => .ok (numeral, [])

/-- What follows the whole digits. -/
def scanFraction (numeral : Numeral) (text : List Char) :
    Except (Fault × Fault) (Numeral × List Char) :=
  match text with
  | '.' :: rest =>
    match digits rest with
    | ([], after) => .error (breakOff after)
    | (found, after) => scanExponent { numeral with fraction := found } after
  | _ => scanExponent numeral text

/-- What follows the sign. -/
def scanWhole (negative : Bool) (text : List Char) :
    Except (Fault × Fault) (Numeral × List Char) :=
  match digits text with
  | ([], rest) => .error (breakOff rest)
  | (0 :: _ :: _, _) => .error (.invalidNumber, .invalidNumber)
  | (whole, rest) => scanFraction { negative, whole } rest

/-- Scan a numeral: the faults are those of a decoded numeral and of one that is passed over. -/
def scan (text : List Char) : Except (Fault × Fault) (Numeral × List Char) :=
  match text with
  | '-' :: rest => scanWhole true rest
  | _ => scanWhole false text

/-- One more than the largest number of 64 bits. -/
def wordEnd : Nat := Nat.pow 2 64

/-- Add digits to a number as long as it fits into 64 bits; the digits that do not are left. -/
def gather : Nat → List Nat → Nat × List Nat
  | value, [] => (value, [])
  | value, digit :: rest =>
    if value * 10 + digit < wordEnd then gather (value * 10 + digit) rest else (value, digit :: rest)

/-- The value of the digits of an exponent, if it has at most 31 bits. -/
def exponentValue? (digits : List Nat) : Option Nat :=
  digits.foldl (fun sum digit => sum.bind fun value =>
    if value * 10 + digit < Nat.pow 2 31 then some (value * 10 + digit) else none) (some 0)

/-- Multiply by a power of ten in rounded steps. -/
def scale : Nat → Float → Int → Except Fault Float
  | 0, _, _ => .ok 0.0
  | fuel + 1, value, exponent =>
    if exponent.natAbs ≤ 308 then
      let power := Float.ofScientific 1 false exponent.natAbs
      if 0 ≤ exponent then
        if (value * power).isInf then .error .numberOutOfRange else .ok (value * power)
      else .ok (value / power)
    else if value == 0.0 then .ok value
    else if 0 ≤ exponent then .error .numberOutOfRange
    else scale fuel (value / 1e308) (exponent + 308)

/-- The sign of a double. -/
def signed (negative : Bool) (value : Float) : Number :=
  .real (if negative then -value else value)

/-- The value of a numeral. -/
def value (numeral : Numeral) : Except Fault Number :=
  let (leading, dropped) := gather 0 numeral.whole
  let (significand, unread) := gather leading numeral.fraction
  let shift : Int := Int.ofNat dropped.length - Int.ofNat (numeral.fraction.length - unread.length)
  match numeral.exponent with
  | some (down, digits) =>
    match exponentValue? digits with
    | some size =>
      let total := if down then shift - Int.ofNat size else shift + Int.ofNat size
      signed numeral.negative <$> scale 4 significand.toFloat total
    | none =>
      if significand ≠ 0 ∧ !down then .error .numberOutOfRange
      else .ok (signed numeral.negative 0.0)
  | none =>
    if numeral.fraction.isEmpty ∧ dropped.isEmpty then
      if !numeral.negative then .ok (.natural significand)
      else if significand = 0 ∨ Nat.pow 2 63 < significand then
        .ok (signed true significand.toFloat)
      else .ok (.negative significand)
    else signed numeral.negative <$> scale 4 significand.toFloat shift

end Numeral

/-- A double as JSON messages show it: positional from `1e-5` up to below `1e16`. -/
def showReal (x : Float) : String :=
  let sign := if Text.isNegative x then "-" else ""
  if x == 0.0 then sign ++ "0.0"
  else
    let decimal := Text.Decimal.shortest x
    let text :=
      if -5 ≤ decimal.exponent ∧ decimal.exponent < 16 then Text.withPoint decimal.positional
      else decimal.scientific
    sign ++ String.ofList text

/-- How a message names a number. -/
def Number.kind : Number → String
  | natural value => "integer `" ++ toString value ++ "`"
  | negative value => "integer `-" ++ toString value ++ "`"
  | real value => "floating point `" ++ showReal value ++ "`"

end Schemata.Json
