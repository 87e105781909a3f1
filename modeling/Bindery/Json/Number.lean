import Bindery.Decimal.Layout

/-!
# JSON numbers

The grammar of JSON numbers, and what a number literal stands for when an integer or a binary64
value is wanted.
-/

namespace Bindery.Json

/-- A number literal taken apart: the digits before and after its point, and its exponent. -/
structure Number where
  negative : Bool
  whole : List Char
  fraction : List Char
  exponent : Option Int
deriving Repr, DecidableEq

namespace Number

/-- The value of a decimal digit. -/
def digitValue (c : Char) : Nat := c.toNat - '0'.toNat

/-- The number that a run of digits denotes. -/
def natOfDigits (digits : List Char) : Nat :=
  digits.foldl (fun n c => 10 * n + digitValue c) 0

/-- The digits after a point, of which there is at least one, and the rest of the text. A text
without a point has none. -/
def readFraction? : List Char → Option (List Char × List Char)
  | '.' :: rest =>
    match rest.takeWhile Char.isDigit with
    | [] => none
    | digits => some (digits, rest.dropWhile Char.isDigit)
  | text => some ([], text)

/-- The exponent digits at the start of the text, of which there is at least one. -/
def readExponentDigits? (negative : Bool) (text : List Char) : Option (Option Int × List Char) :=
  match text.takeWhile Char.isDigit with
  | [] => none
  | digits =>
    let n : Int := natOfDigits digits
    some (some (if negative then -n else n), text.dropWhile Char.isDigit)

/-- An exponent mark with an optional sign and its digits, or nothing. -/
def readExponent? : List Char → Option (Option Int × List Char)
  | c :: rest =>
    if c = 'e' ∨ c = 'E' then
      match rest with
      | '+' :: digits => readExponentDigits? false digits
      | '-' :: digits => readExponentDigits? true digits
      | digits => readExponentDigits? false digits
    else some (none, c :: rest)
  | [] => some (none, [])

/-- The number at the start of a text, without its sign. A leading zero stands alone. -/
def readMagnitude? (negative : Bool) (text : List Char) : Option (Number × List Char) := do
  let whole := text.takeWhile Char.isDigit
  guard (whole ≠ [] ∧ (whole.head? = some '0' → whole.length = 1))
  let (fraction, rest) ← readFraction? (text.dropWhile Char.isDigit)
  let (exponent, rest) ← readExponent? rest
  return (⟨negative, whole, fraction, exponent⟩, rest)

/-- The number at the start of a text and the text after it. -/
def read? : List Char → Option (Number × List Char)
  | '-' :: rest => readMagnitude? true rest
  | text => readMagnitude? false text

/-- The number that a whole text denotes. -/
def ofText? (text : String) : Option Number :=
  match read? text.toList with
  | some (number, []) => some number
  | _ => none

/-- The integer that a literal without point and exponent denotes. The literal `-0` denotes a
negative zero, which is no integer. -/
def toInt? (number : Number) : Option Int :=
  if number.fraction ≠ [] ∨ number.exponent.isSome then none
  else
    let n := natOfDigits number.whole
    if number.negative then if n = 0 then none else some (-n) else some n

/-- The binary64 value nearest to the number. -/
def nearest (number : Number) : Float :=
  .ofBits (Decimal.Binary64.nearest number.negative (natOfDigits (number.whole ++ number.fraction))
    (number.exponent.getD 0 - number.fraction.length))

/-- Significands that are read stay below this bound, `2 ^ 64`. -/
def significandBound : Nat := 0x10000000000000000

/-- Appends digits to a significand while it stays below the bound; the second component counts the
digits that no longer fit. -/
def extendSignificand : Nat → List Char → Nat × Nat
  | significand, [] => (significand, 0)
  | significand, c :: rest =>
    let longer := 10 * significand + digitValue c
    if longer < significandBound then extendSignificand longer rest
    else (significand, rest.length + 1)

/-- The power of ten as a binary64 value. -/
def powerOfTen (n : Nat) : Float := .ofBits (Decimal.Binary64.nearest false 1 n)

/-- Scales a significand by a power of ten in one multiplication or division by the rounded power.
The greatest finite power is the 308th: beyond it a non-zero number is out of range, and below its
reciprocal one division by it comes first. -/
def scale? (significand : Float) (exponent : Int) : Option Float :=
  if 0 ≤ exponent then
    if exponent ≤ 308 then
      let scaled := significand * powerOfTen exponent.toNat
      if scaled.isInf then none else some scaled
    else if significand == 0 then some significand else none
  else if -308 ≤ exponent then some (significand / powerOfTen (-exponent).toNat)
  else
    let scaled := significand / powerOfTen 308
    if -616 ≤ exponent then some (scaled / powerOfTen (-exponent - 308).toNat)
    else some (scaled / powerOfTen 308)

/-- The binary64 value of a number read from JSON, or nothing when it is out of range. Only the
digits that fit a 64-bit significand count, and the exponent is applied to the rounded significand,
so the value may differ from the nearest one in its last place. -/
def toFloat? (number : Number) : Option Float := do
  let (significand, wholeLeft) := extendSignificand 0 number.whole
  let (significand, fractionLeft) := extendSignificand significand number.fraction
  let places : Int := (number.fraction.length : Int) - fractionLeft
  let value ← scale? (Float.ofNat significand) (wholeLeft - places + number.exponent.getD 0)
  return if number.negative then -value else value

end Number

/-- Numbers in JSON keep a point or an exponent; they are positional from `10 ^ -5` up to, but not
including, `10 ^ 16`, and a positive exponent carries its sign. -/
def numberLayout : Decimal.Layout where
  positional leading := -5 ≤ leading && leading < 16
  pointZero := true
  exponentPlus := true
  tie := .toEven

end Bindery.Json
