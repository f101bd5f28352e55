import Schemata.Text.Decimal
import Schemata.Text.Hexadecimal

/-!
# What plain scalars stand for

A plain scalar is null, a truth value, an integer or a double if it is written like one, tried in
this order, and a text otherwise.
-/

namespace Schemata.Yaml

/-- What a scalar stands for. -/
inductive Meaning where
  | null
  | flag (value : Bool)
  | integer (value : Int)
  | real (value : Float)
  | text

namespace Scalar

/-- Whether a scalar is written like the null value. An empty one is not. -/
def isNull (text : String) : Bool :=
  ["~", "null", "Null", "NULL"].contains text

/-- The truth value that a scalar is written like. -/
def flag? (text : String) : Option Bool :=
  if ["true", "True", "TRUE"].contains text then some true
  else if ["false", "False", "FALSE"].contains text then some false
  else none

/-- The value of digits in a base of at most sixteen; no digits have no value. -/
def natural? (base : Nat) (digits : List Char) : Option Nat :=
  if digits.isEmpty then none
  else digits.foldlM (fun sum c => do
    let digit ← Text.hexValue? c
    if digit < base then some (sum * base + digit) else none) 0

/-- Whether a text is a zero with more digits after it, and nothing else. -/
def isPadded : List Char → Bool
  | '0' :: c :: rest => (c :: rest).all Char.isDigit
  | _ => false

/-- A text without the sign that it may start with. -/
def unsigned : List Char → List Char
  | '+' :: rest => rest
  | '-' :: rest => rest
  | rest => rest

/-- The size of a number without a sign: decimal without padding, or in the base that its first two characters
name. -/
def size? (text : List Char) : Option Nat :=
  match text with
  | '0' :: 'x' :: digits => natural? 16 digits
  | '0' :: 'o' :: digits => natural? 8 digits
  | '0' :: 'b' :: digits => natural? 2 digits
  | digits => if isPadded digits then none else natural? 10 digits

/-- The integer that a scalar is written like, of at most 128 bits. -/
def integer? (text : List Char) : Option Int :=
  match text with
  | '-' :: rest => do
    let size ← size? rest
    if size ≤ Nat.pow 2 127 then some (-Int.ofNat size) else none
  | '+' :: rest => do
    let size ← size? rest
    if size < Nat.pow 2 128 then some (Int.ofNat size) else none
  | rest => do
    let size ← size? rest
    if size < Nat.pow 2 128 then some (Int.ofNat size) else none

/-- The value of the digits of an exponent; beyond any that matters it stops growing. -/
def exponentSize (digits : List Char) : Nat :=
  digits.foldl (fun sum c => if sum < 65536 then sum * 10 + (c.toNat - 0x30) else sum) 0

/-- The double nearest to `digits · 10^exponent`. -/
def nearest (digits : Nat) (exponent : Int) : Float :=
  if digits = 0 then 0.0
  else
    let length : Int := (Nat.toDigits 10 digits).length
    if 400 < length + exponent then 1.0 / 0.0
    else if length + exponent < -400 then 0.0
    else if 0 ≤ exponent then Float.ofScientific (digits * Nat.pow 10 exponent.toNat) false 0
    else Float.ofScientific digits true exponent.natAbs

/-- The exponent at the end of a decimal. -/
def exponent? (text : List Char) : Option Int :=
  match text with
  | [] => some 0
  | mark :: rest =>
    if mark ≠ 'e' ∧ mark ≠ 'E' then none
    else
      let (down, digits) : Bool × List Char := match rest with
        | '+' :: digits => (false, digits)
        | '-' :: digits => (true, digits)
        | digits => (false, digits)
      if digits.isEmpty || !digits.all Char.isDigit then none
      else
        let size := Int.ofNat (exponentSize digits)
        some (if down then -size else size)

/-- The double that a decimal without a sign is written like: digits with a point anywhere, and an
exponent. -/
def decimal? (text : List Char) : Option Float := do
  let whole := text.takeWhile Char.isDigit
  let rest := text.dropWhile Char.isDigit
  let (fraction, rest) : List Char × List Char := match rest with
    | '.' :: rest => (rest.takeWhile Char.isDigit, rest.dropWhile Char.isDigit)
    | _ => ([], rest)
  if whole.isEmpty ∧ fraction.isEmpty then none
  else
    let exponent ← exponent? rest
    let digits ← natural? 10 (whole ++ fraction)
    let value := nearest digits (exponent - Int.ofNat fraction.length)
    if value.isInf then none else some value

/-- The double that a scalar is written like. -/
def real? (text : List Char) : Option Float :=
  let (negative, signed, unsigned) : Bool × Bool × List Char := match text with
    | '+' :: rest => (false, true, rest)
    | '-' :: rest => (true, true, rest)
    | rest => (false, false, rest)
  if [".inf", ".Inf", ".INF"].contains (String.ofList unsigned) then
    some (if negative then -(1.0 / 0.0) else 1.0 / 0.0)
  else if !signed && [".nan", ".NaN", ".NAN"].contains (String.ofList unsigned) then
    some (0.0 / 0.0)
  else (decimal? unsigned).map fun value => if negative then -value else value

/-- What an untagged plain scalar stands for. -/
def meaning (text : String) : Meaning :=
  if text.isEmpty || isNull text then .null
  else
    match flag? text with
    | some value => .flag value
    | none =>
      match integer? text.toList with
      | some value => .integer value
      | none =>
        if isPadded (unsigned text.toList) then .text
        else
          match real? text.toList with
          | some value => .real value
          | none => .text

/-- A double as YAML messages show it: never with an exponent. -/
def showReal (x : Float) : String :=
  if x.isNaN then "NaN"
  else
    let sign := if Text.isNegative x then "-" else ""
    if x.isInf then sign ++ "inf"
    else if x == 0.0 then sign ++ "0.0"
    else sign ++ String.ofList (Text.withPoint (Text.Decimal.shortest x).positional)

end Scalar

end Schemata.Yaml
