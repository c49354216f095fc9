/-!
# Binary numbers of 64 bits

A binary number is kept as its 64 bits: a sign, eleven bits of exponent and
fifty-two bits of fraction.  A decimal is read as the nearest binary number,
a tie going to the one with an even significand, and a finite number is
exactly `significand · 2 ^ exponent`.
-/

namespace IdeModules

def twoTo (power : Nat) : Nat := Nat.pow 2 power

def tenTo (power : Nat) : Nat := Nat.pow 10 power

/-- A binary floating point number of 64 bits. -/
structure Binary64 where
  bits : Nat
  deriving DecidableEq, Repr, Inhabited

namespace Binary64

def signBit : Nat := twoTo 63

def isNegative (x : Binary64) : Bool :=
  signBit ≤ x.bits

/-- The eleven bits of the exponent. -/
def exponentField (x : Binary64) : Nat :=
  x.bits % signBit / twoTo 52

/-- The fifty-two bits of the fraction. -/
def fractionField (x : Binary64) : Nat :=
  x.bits % twoTo 52

/-- Whether the bits stand for no number at all. -/
def isNaN (x : Binary64) : Bool :=
  x.exponentField == 2047 && x.fractionField != 0

def isInfinite (x : Binary64) : Bool :=
  x.exponentField == 2047 && x.fractionField == 0

/-- The significand of a finite number. -/
def significand (x : Binary64) : Nat :=
  if x.exponentField = 0 then x.fractionField else twoTo 52 + x.fractionField

/-- The power of two by which a finite number scales its significand. -/
def exponent (x : Binary64) : Int :=
  if x.exponentField = 0 then -1074 else (x.exponentField : Int) - 1075

def nan : Binary64 := ⟨2047 * twoTo 52 + twoTo 51⟩

def infinity (negative : Bool) : Binary64 :=
  ⟨(if negative then signBit else 0) + 2047 * twoTo 52⟩

/-- A quotient rounded to the nearest whole number, a tie going to the even one. -/
def roundQuotient (numerator denominator : Nat) : Nat :=
  let below := numerator / denominator
  let twice := 2 * (numerator % denominator)
  if twice < denominator then below
  else if denominator < twice then below + 1
  else below + below % 2

/-- A quotient over a power of two, rounded to the nearest whole number. -/
def roundScaled (numerator denominator : Nat) (power : Int) : Nat :=
  match power with
  | .ofNat up => roundQuotient numerator (denominator * twoTo up)
  | .negSucc down => roundQuotient (numerator * twoTo (down + 1)) denominator

/-- Whether a quotient has fewer than 53 bits before the point in units of a power of two. -/
def needsFiner (numerator denominator : Nat) (power : Int) : Bool :=
  match power with
  | .ofNat up => numerator < denominator * twoTo up * twoTo 52
  | .negSucc down => numerator * twoTo (down + 1) < denominator * twoTo 52

/-- The nearest binary number to a positive quotient, with a sign. -/
def ofQuotient (negative : Bool) (numerator denominator : Nat) : Binary64 :=
  let guess : Int := (numerator.log2 : Int) - denominator.log2 - 52
  let fitted := if needsFiner numerator denominator guess then guess - 1 else guess
  let power := max fitted (-1074)
  let rounded := roundScaled numerator denominator power
  let magnitude :=
    if rounded < twoTo 52 then rounded
    else (power + 1075).toNat * twoTo 52 + (rounded - twoTo 52)
  if 2047 * twoTo 52 ≤ magnitude then infinity negative
  else ⟨(if negative then signBit else 0) + magnitude⟩

/-- The nearest binary number to a decimal, with a sign. -/
def ofDecimal (negative : Bool) (digits : Nat) (power : Int) : Binary64 :=
  let size : Int := (Nat.repr digits).length + power
  if digits = 0 || size < -400 then ⟨if negative then signBit else 0⟩
  else if 400 < size then infinity negative
  else
    match power with
    | .ofNat up => ofQuotient negative (digits * tenTo up) 1
    | .negSucc down => ofQuotient negative digits (tenTo (down + 1))

/-- The whole number that a number is, if it is one. -/
def integer? (x : Binary64) : Option Int :=
  let sign : Int := if x.isNegative then -1 else 1
  if x.isNaN || x.isInfinite then none
  else
    match x.exponent with
    | .ofNat up => some (sign * (x.significand * twoTo up : Nat))
    | .negSucc down =>
      if x.significand % twoTo (down + 1) = 0 then
        some (sign * (x.significand / twoTo (down + 1) : Nat))
      else none

end Binary64

end IdeModules
