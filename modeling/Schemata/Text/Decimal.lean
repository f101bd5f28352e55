/-!
# Shortest decimals

The decimal that stands for a double: of all decimals that are read back as the same double, those
with the fewest digits, and of these the nearest. `shortest` finds its digits and the place of its
point in exact arithmetic; `positional` and `scientific` write them.
-/

namespace Schemata.Text

/-- A positive decimal: digits without leading or trailing zeros, and the exponent of ten of the
first digit. -/
structure Decimal where
  digits : List Char
  exponent : Int
  deriving DecidableEq, Repr

namespace Decimal

/-- The mantissa and the binary exponent of a finite double, its sign left out. -/
def parts (x : Float) : Nat × Int :=
  let bits := x.toBits.toNat
  let biased : Nat := bits / Nat.pow 2 52 % Nat.pow 2 11
  let fraction : Nat := bits % Nat.pow 2 52
  if biased = 0 then (fraction, -1074) else (fraction + Nat.pow 2 52, Int.ofNat biased - 1075)

/-- `n · 2^q` times `4 · 10^(-e)` as a fraction. -/
def scaled (n : Nat) (q e : Int) : Nat × Nat :=
  (4 * n * Nat.pow 2 q.toNat * Nat.pow 10 (-e).toNat, Nat.pow 2 (-q).toNat * Nat.pow 10 e.toNat)

/-- The decimal made of a count of `10^e`. -/
def ofCount (count : Nat) (e : Int) : Decimal :=
  let digits := Nat.toDigits 10 count
  let kept := (digits.reverse.dropWhile (· == '0')).reverse
  { digits := kept, exponent := e + digits.length - 1 }

/-- The multiple of `10^e` that is read back as `m · 2^q` and lies nearest to it, if there is one.
The bounds of what is read back count as inside when `m` is even. -/
def onGrid? (m : Nat) (q e : Int) : Option Nat :=
  let (value, den) := scaled m q e
  let (unit, _) := scaled 1 q e
  let below := if m = Nat.pow 2 52 ∧ -1074 < q then unit / 4 else unit / 2
  let above := unit / 2
  let inside (count : Nat) : Bool :=
    let here := 4 * count * den
    if m % 2 = 0 then value ≤ here + below && here ≤ value + above
    else value < here + below && here < value + above
  let low := value / (4 * den)
  let high := low + 1
  let nearLow := 2 * value < 4 * (low + high) * den ∨
    (2 * value = 4 * (low + high) * den ∧ low % 2 = 0)
  if inside low && low ≠ 0 then
    if inside high && !nearLow then some high else some low
  else if inside high then some high
  else none

/-- Look for a decimal on finer and finer grids. -/
def search (m : Nat) (q : Int) : Nat → Int → Decimal
  | 0, e => ofCount (m * Nat.pow 2 q.toNat) e
  | fuel + 1, e =>
    match onGrid? m q e with
    | some count => ofCount count e
    | none => search m q fuel (e - 1)

/-- The shortest decimal of a finite double other than zero, its sign left out. -/
def shortest (x : Float) : Decimal :=
  let (m, q) := parts x
  let top : Int := if 0 ≤ q then ((Nat.toDigits 10 (m * Nat.pow 2 q.toNat)).length : Int)
    else ((Nat.toDigits 10 (m / Nat.pow 2 (-q).toNat)).length : Int)
  search m q 700 top

/-- The digits without an exponent. -/
def positional (decimal : Decimal) : List Char :=
  let count := decimal.digits.length
  if decimal.exponent < 0 then
    '0' :: '.' :: List.replicate (-decimal.exponent - 1).toNat '0' ++ decimal.digits
  else
    let whole := decimal.exponent.toNat + 1
    if count ≤ whole then decimal.digits ++ List.replicate (whole - count) '0'
    else decimal.digits.take whole ++ '.' :: decimal.digits.drop whole

/-- One digit, the rest after a point, and a signed exponent. -/
def scientific (decimal : Decimal) : List Char :=
  let point := match decimal.digits with
    | [] => []
    | [digit] => [digit]
    | digit :: rest => digit :: '.' :: rest
  let sign := if decimal.exponent < 0 then '-' else '+'
  point ++ 'e' :: sign :: Nat.toDigits 10 decimal.exponent.natAbs

end Decimal

/-- Whether a double carries the minus sign, also on a zero. -/
def isNegative (x : Float) : Bool :=
  x.toBits.toNat / Nat.pow 2 63 == 1

/-- A number as text always shows a point or an exponent. -/
def withPoint (text : List Char) : List Char :=
  if text.any (fun c => c == '.' || c == 'e') then text else text ++ ['.', '0']

end Schemata.Text
