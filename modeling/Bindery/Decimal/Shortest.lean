import Bindery.Decimal.Binary64

/-!
# The fewest digits that read back

A finite binary64 value is written with the fewest decimal digits that still round to it. The
reals that round to a value form an interval, whose ends belong to it exactly when the
significand is even; the digits are found by trying the value's two neighbours on ever finer
decimal grids.
-/

namespace Bindery.Decimal

/-- The number `digits * 10 ^ exponent`. -/
structure Scientific where
  digits : Nat
  exponent : Int
deriving Repr, DecidableEq

/-- Where two candidates of one length are equally close: the even one, or the upper one. -/
inductive TieRule where
  | toEven
  | upward
deriving Repr, DecidableEq

/-- The reals that round to one positive value, in units of `2 ^ unit`: from `lower` to `upper`,
the ends included when `closed`, around `middle`. -/
structure Interval where
  lower : Nat
  middle : Nat
  upper : Nat
  closed : Bool
  unit : Int
deriving Repr

/-- The interval of `significand * 2 ^ exponent`. Just above a power of two the neighbour below is
half as far away as the neighbour above, unless the exponent is already the least one. -/
def Interval.around (significand : Nat) (exponent : Int) : Interval where
  lower :=
    if significand = Binary64.fullSignificand ∧ Binary64.minExponent < exponent then
      4 * significand - 1
    else 4 * significand - 2
  middle := 4 * significand
  upper := 4 * significand + 2
  closed := significand % 2 == 0
  unit := exponent - 2

namespace Interval

/-- Compares `digits * 10 ^ exponent` with `n * 2 ^ unit` by cross-multiplication. -/
def compareDecimal (decimal : Scientific) (n : Nat) (unit : Int) : Ordering :=
  let (a, b) := Binary64.divideByPower 10 decimal.digits n (-decimal.exponent)
  let (a, b) := Binary64.divideByPower 2 a b unit
  compare a b

/-- Whether a decimal lies in the interval, and so reads back as its value. -/
def contains (interval : Interval) (decimal : Scientific) : Bool :=
  let low := compareDecimal decimal interval.lower interval.unit
  let high := compareDecimal decimal interval.upper interval.unit
  (low == .gt || (interval.closed && low == .eq)) &&
    (high == .lt || (interval.closed && high == .eq))

/-- The middle value as a fraction. -/
def fraction (interval : Interval) : Nat × Nat :=
  Binary64.divideByPower 2 interval.middle 1 (-interval.unit)

/-- The least `k` with value below `10 ^ k`. The lengths of numerator and denominator leave two
choices for it. -/
def decimalLength (interval : Interval) : Int :=
  let (num, den) := interval.fraction
  let k : Int := ((Nat.toDigits 10 num).length : Int) - (Nat.toDigits 10 den).length
  let (num, den) := Binary64.divideByPower 10 num den k
  if num < den then k else k + 1

/-- The neighbours of the value on the grid of multiples of `10 ^ exponent` that read back; of two
the closer one, and of two equally close ones the one that the rule picks. -/
def closestOnGrid (tie : TieRule) (interval : Interval) (exponent : Int) : Option Scientific :=
  let (num, den) := interval.fraction
  let (num, den) := Binary64.divideByPower 10 num den exponent
  let below := num / den
  let down : Scientific := ⟨below, exponent⟩
  let up : Scientific := ⟨below + 1, exponent⟩
  match interval.contains down, interval.contains up with
  | false, false => none
  | true, false => some down
  | false, true => some up
  | true, true =>
    match compareDecimal ⟨2 * below + 1, exponent⟩ (2 * interval.middle) interval.unit with
    | .lt => some up
    | .gt => some down
    | .eq =>
      match tie with
      | .upward => some up
      | .toEven => if below % 2 = 0 then some down else some up

/-- The value with all its digits. -/
def exact (interval : Interval) : Scientific :=
  let places := (-interval.unit).toNat
  ⟨interval.middle * Nat.pow 2 interval.unit.toNat * Nat.pow 5 places, -(places : Int)⟩

end Interval

/-- The same number without trailing zero digits, of which at most `fuel` are removed. -/
def Scientific.stripZeros : (fuel : Nat) → Scientific → Scientific
  | 0, decimal => decimal
  | fuel + 1, decimal =>
    if decimal.digits ≠ 0 ∧ decimal.digits % 10 = 0 then
      stripZeros fuel ⟨decimal.digits / 10, decimal.exponent + 1⟩
    else decimal

/-- The shortest decimal that reads back as `significand * 2 ^ exponent`, for a positive
significand. Seventeen digits always suffice; the grids are tried from the coarsest on. -/
def shortest (tie : TieRule) (significand : Nat) (exponent : Int) : Scientific :=
  let interval := Interval.around significand exponent
  let length := interval.decimalLength
  let found := (List.range 17).findSome? fun n =>
    interval.closestOnGrid tie (length - (n + 1 : Nat))
  (found.getD interval.exact).stripZeros 20

end Bindery.Decimal
