import IdeModules.Number.Binary64

/-!
# Shortest decimal text of a binary number

A finite number other than zero is written with the fewest decimal digits that
read back as the same number; of two such decimals the nearer is taken, and of
two equally near ones the one with an even last digit.  The reals that read
back are those between the midpoints to the two neighbours, the midpoints
included for an even significand.
-/

namespace IdeModules

/-- A decimal: `digits · 10 ^ power`. -/
structure Decimal where
  digits : Nat
  power : Int
  deriving DecidableEq, Repr

namespace Binary64

/-- The reals that read back as a number: two bounds and the number itself, all
over one denominator, and whether the bounds belong to them. -/
structure Interval where
  low : Nat
  value : Nat
  high : Nat
  denominator : Nat
  closed : Bool

/-- The reals that read back as a positive finite number. -/
def interval (x : Binary64) : Interval :=
  let m := x.significand
  let narrow := x.fractionField == 0 && 1 < x.exponentField
  let low := if narrow then 4 * m - 1 else 4 * m - 2
  let closed := m % 2 == 0
  match x.exponent with
  | .ofNat up => ⟨low * twoTo up, 4 * m * twoTo up, (4 * m + 2) * twoTo up, 4, closed⟩
  | .negSucc down => ⟨low, 4 * m, 4 * m + 2, 4 * twoTo (down + 1), closed⟩

/-- Whether a multiple of a power of ten reads back as the number. -/
def Interval.holds (reach : Interval) (digits : Nat) (power : Int) : Bool :=
  let (point, scale) : Nat × Nat := match power with
    | .ofNat up => (digits * tenTo up * reach.denominator, 1)
    | .negSucc down => (digits * reach.denominator, tenTo (down + 1))
  if reach.closed then reach.low * scale ≤ point && point ≤ reach.high * scale
  else reach.low * scale < point && point < reach.high * scale

/-- The number in units of a power of ten: whole units, and how twice the rest
compares with one unit. -/
def Interval.units (reach : Interval) (power : Int) : Nat × Ordering :=
  let (numerator, denominator) : Nat × Nat := match power with
    | .ofNat up => (reach.value, reach.denominator * tenTo up)
    | .negSucc down => (reach.value * tenTo (down + 1), reach.denominator)
  (numerator / denominator, compare (2 * (numerator % denominator)) denominator)

/-- The decimal on a grid of powers of ten that reads back and lies nearest. -/
def Interval.onGrid (reach : Interval) (power : Int) : Option Decimal :=
  let (below, rest) := reach.units power
  let holdsBelow := reach.holds below power
  let holdsAbove := reach.holds (below + 1) power
  let upper := match rest with
    | .lt => false
    | .gt => true
    | .eq => below % 2 == 1
  if holdsBelow && holdsAbove then some ⟨if upper then below + 1 else below, power⟩
  else if holdsBelow then some ⟨below, power⟩
  else if holdsAbove then some ⟨below + 1, power⟩
  else none

/-- The number of decimal digits before the point of a quotient of at least
one, or less the number of zeros behind the point of a smaller one. -/
def decimalPlace (numerator denominator : Nat) : Int :=
  if denominator ≤ numerator then (Nat.repr (numerator / denominator)).length
  else 1 - (Nat.repr ((denominator - 1) / numerator)).length

/-- Tries the grids of ever smaller powers of ten. -/
def Interval.search (reach : Interval) : Nat → Int → Decimal
  | 0, power => ⟨(reach.units power).1, power⟩
  | tries + 1, power =>
    match reach.onGrid power with
    | some found => found
    | none => reach.search tries (power - 1)

/-- The decimal without zeros at the end of its digits. -/
def stripZeros : Nat → Decimal → Decimal
  | 0, decimal => decimal
  | steps + 1, decimal =>
    if decimal.digits ≠ 0 ∧ decimal.digits % 10 = 0 then
      stripZeros steps ⟨decimal.digits / 10, decimal.power + 1⟩
    else decimal

/-- The shortest decimal that reads back as a positive finite number. -/
def shortest (x : Binary64) : Decimal :=
  let reach := x.interval
  stripZeros 20 (reach.search 20 (decimalPlace reach.value reach.denominator - 1))

end Binary64

/-- How a number is laid out as text. -/
structure NumberStyle where
  /-- The least decimal exponent that is written without an exponent part. -/
  leastPlain : Int
  /-- The least decimal exponent that is too large to be written without an exponent part. -/
  firstScientific : Int
  /-- The least number of digits in an exponent part. -/
  exponentDigits : Nat
  /-- The text for the bits that stand for no number. -/
  nan : String
  /-- The text for infinity, without its sign. -/
  infinity : String

namespace NumberStyle

def zeros (count : Nat) : String :=
  String.ofList (List.replicate count '0')

/-- A decimal without an exponent part, with at least one digit on each side of the point. -/
def plain (digits : String) (exponent : Int) : String :=
  if exponent < 0 then "0." ++ zeros (-exponent - 1).toNat ++ digits
  else
    let whole := exponent.toNat + 1
    if digits.length ≤ whole then digits ++ zeros (whole - digits.length) ++ ".0"
    else
      String.ofList (digits.toList.take whole) ++ "." ++ String.ofList (digits.toList.drop whole)

/-- A decimal with an exponent part; the point is left out after a lone digit. -/
def scientific (style : NumberStyle) (digits : String) (exponent : Int) : String :=
  let mantissa := match digits.toList with
    | first :: second :: rest => String.ofList (first :: '.' :: second :: rest)
    | _ => digits
  let size := Nat.repr exponent.natAbs
  mantissa ++ "e" ++ (if exponent < 0 then "-" else "+") ++
    zeros (style.exponentDigits - size.length) ++ size

def text (style : NumberStyle) (x : Binary64) : String :=
  let sign := if x.isNegative then "-" else ""
  if x.isNaN then style.nan
  else if x.isInfinite then sign ++ style.infinity
  else if x.significand = 0 then sign ++ "0.0"
  else
    let decimal := x.shortest
    let digits := Nat.repr decimal.digits
    let exponent := decimal.power + digits.length - 1
    if style.leastPlain ≤ exponent ∧ exponent < style.firstScientific then
      sign ++ plain digits exponent
    else sign ++ style.scientific digits exponent

end NumberStyle

end IdeModules
