import Bindery.Decimal.Shortest

/-!
# Written forms of numbers

Shortest digits can be laid out in several ways. A `Layout` records the decisions of one output
format: which exponents are written positionally, whether a whole number keeps a point, how
exponents are signed, and how ties between equally short digits are broken.
-/

namespace Bindery.Decimal

/-- The decisions of one number format. -/
structure Layout where
  /-- Whether a number whose leading digit has this decimal exponent is written positionally. -/
  positional : Int → Bool
  /-- Whether a positional whole number ends in `.0`. -/
  pointZero : Bool
  /-- Whether positive exponents carry a plus sign. -/
  exponentPlus : Bool
  tie : TieRule

namespace Layout

/-- As many zero digits. -/
def zeros (n : Nat) : String := String.ofList (List.replicate n '0')

/-- Digits with the point placed after the digit of exponent zero. -/
def positionalText (layout : Layout) (digits : List Char) (leading : Int) : String :=
  if leading < 0 then "0." ++ zeros (-leading - 1).toNat ++ String.ofList digits
  else
    let whole := leading.toNat + 1
    if digits.length ≤ whole then
      String.ofList digits ++ zeros (whole - digits.length) ++
        (if layout.pointZero then ".0" else "")
    else String.ofList (digits.take whole) ++ "." ++ String.ofList (digits.drop whole)

/-- The first digit, the point and the rest, and the exponent of the first digit. -/
def exponentText (layout : Layout) (digits : List Char) (leading : Int) : String :=
  let mantissa :=
    match digits with
    | first :: second :: rest => String.ofList [first, '.', second] ++ String.ofList rest
    | _ => String.ofList digits
  let sign := if leading < 0 then "-" else if layout.exponentPlus then "+" else ""
  mantissa ++ "e" ++ sign ++ toString leading.natAbs

/-- The written form of a value without its sign. -/
def magnitudeText (layout : Layout) (significand : Nat) (exponent : Int) : String :=
  if significand = 0 then if layout.pointZero then "0.0" else "0"
  else
    let decimal := shortest layout.tie significand exponent
    let digits := Nat.toDigits 10 decimal.digits
    let leading := decimal.exponent + digits.length - 1
    if layout.positional leading then layout.positionalText digits leading
    else layout.exponentText digits leading

/-- The written form of a binary64 value, with `NaN`, `inf` and `-inf` for what has no digits. -/
def text (layout : Layout) (x : Float) : String :=
  match Binary64.ofBits x.toBits with
  | .nan => "NaN"
  | .infinite negative => if negative then "-inf" else "inf"
  | .finite negative significand exponent =>
    (if negative then "-" else "") ++ layout.magnitudeText significand exponent

end Layout

end Bindery.Decimal
