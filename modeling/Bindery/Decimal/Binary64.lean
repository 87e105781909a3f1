/-!
# Binary64 values

A binary64 word stands for a signed multiple of a power of two, an infinity or no number at all.
This file takes words apart and finds the word nearest to a fraction, both in exact natural
number arithmetic.
-/

namespace Bindery.Decimal

/-- What a binary64 word stands for. -/
inductive Binary64 where
  | nan
  | infinite (negative : Bool)
  /-- The value `significand * 2 ^ exponent`, with its sign kept apart so that zero has one. -/
  | finite (negative : Bool) (significand : Nat) (exponent : Int)
deriving Repr, DecidableEq

namespace Binary64

/-- The least significand with all 53 bits, `2 ^ 52`. -/
def fullSignificand : Nat := 0x10000000000000

/-- The least exponent of a finite word; all words below `fullSignificand * 2 ^ minExponent` share
it. -/
def minExponent : Int := -1074

/-- Takes a word apart into sign, exponent field and fraction field. -/
def ofBits (word : UInt64) : Binary64 :=
  let negative := word >>> 63 == 1
  let field := ((word >>> 52) &&& 0x7FF).toNat
  let fraction := (word &&& 0xFFFFFFFFFFFFF).toNat
  if field = 0x7FF then
    if fraction = 0 then .infinite negative else .nan
  else if field = 0 then .finite negative fraction minExponent
  else .finite negative (fullSignificand + fraction) (minExponent + (field - 1))

/-- The quotient rounded to the nearest natural number; a half goes to the even neighbour. -/
def divideToEven (num den : Nat) : Nat :=
  let q := num / den
  let r := num % den
  if 2 * r < den then q else if den < 2 * r then q + 1 else q + q % 2

/-- The fraction `num / den` divided by `base ^ exponent`, as a numerator and a denominator. -/
def divideByPower (base num den : Nat) (exponent : Int) : Nat × Nat :=
  (num * Nat.pow base (-exponent).toNat, den * Nat.pow base exponent.toNat)

/-- The word without sign that is nearest to `num / den`. The exponent is the one that leaves a
53-bit significand, and a significand that rounds up to 54 bits carries into the exponent field by
itself. Values beyond the greatest finite word become infinity. -/
def nearestMagnitude (num den : Nat) : UInt64 :=
  if num = 0 then 0
  else
    let estimate : Int := (num.log2 : Int) - den.log2 - 52
    let (n, d) := divideByPower 2 num den estimate
    let exponent := max minExponent (if n < fullSignificand * d then estimate - 1 else estimate)
    let (n, d) := divideByPower 2 num den exponent
    let word := (exponent - minExponent).toNat * fullSignificand + divideToEven n d
    (min word (0x7FF * fullSignificand)).toUInt64

/-- The word nearest to `± digits * 10 ^ exponent`. Exponents far outside the range are answered
without computing the power. -/
def nearest (negative : Bool) (digits : Nat) (exponent : Int) : UInt64 :=
  let length : Int := (Nat.toDigits 10 digits).length
  let magnitude : UInt64 :=
    if digits = 0 ∨ length + exponent < -400 then 0
    else if 400 < length + exponent then 0x7FF0000000000000
    else
      let (n, d) := divideByPower 10 digits 1 (-exponent)
      nearestMagnitude n d
  if negative then magnitude ||| 0x8000000000000000 else magnitude

end Binary64

end Bindery.Decimal
