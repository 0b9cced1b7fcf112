import FlowPlan.Word

namespace FlowPlan

/-!
The fewest decimal digits that name a double.

A double stands for every real that rounds to it.  Among the decimals of one,
two, ... digits the first that lies in that interval names the double; of two
with equally many digits the nearer does, and of two equally near the even one.
The interval contains its ends exactly when the significand is even.  If any
point of a decimal grid lies in the interval, so does one of the two grid
points around the double itself, and only those two are tried.
-/

/-- The number `digits * 10 ^ exponent`, with no trailing zero in `digits`
unless it is zero. -/
structure Decimal where
  digits : Nat
  exponent : Int
  deriving DecidableEq, Repr

namespace Decimal

/-- Move trailing zeros of the digits into the exponent. -/
def normalize (digits : Nat) (exponent : Int) : Decimal :=
  if 0 < digits ∧ digits % 10 = 0 then normalize (digits / 10) (exponent + 1)
  else ⟨digits, exponent⟩
termination_by digits
decreasing_by omega

end Decimal

/-- A positive double and the reals that round to it, as multiples of a common
fraction `1 / unit`. -/
structure RoundingInterval where
  low : Nat
  middle : Nat
  high : Nat
  unit : Nat
  closed : Bool

namespace RoundingInterval

/-- The leading bit of a significand, which a normal double leaves out. -/
def hiddenBit : Nat := 4503599627370496

/-- The interval of the double with these bits, its sign left out of account.
Below a power of two the neighbour is half as far away. -/
def ofBits (bits : Nat) : RoundingInterval :=
  let field := bits / hiddenBit % 2048
  let fraction := bits % hiddenBit
  let significand := if field = 0 then fraction else fraction + hiddenBit
  let power := if field = 0 then 1 else field
  let step := if fraction = 0 ∧ 1 < field then 1 else 2
  let scale := Nat.pow 2 (power - 1077)
  { low := (4 * significand - step) * scale
    middle := 4 * significand * scale
    high := (4 * significand + 2) * scale
    unit := Nat.pow 2 (1077 - power)
    closed := significand % 2 = 0 }

/-- The exponent of the leading decimal digit. -/
def leading (interval : RoundingInterval) : Int :=
  if interval.unit ≤ interval.middle then
    (Nat.toDigits 10 (interval.middle / interval.unit)).length - 1
  else -((Nat.toDigits 10 (interval.unit / interval.middle)).length : Int)

/-- The decimal `digits * 10 ^ exponent` rounds to the double. -/
def holds (interval : RoundingInterval) (digits : Nat) (exponent : Int) : Bool :=
  let point := digits * Nat.pow 10 exponent.toNat * interval.unit
  let scale := Nat.pow 10 (-exponent).toNat
  if interval.closed then interval.low * scale ≤ point && point ≤ interval.high * scale
  else interval.low * scale < point && point < interval.high * scale

/-- The better of the two decimals around the double on one grid, if any of
them rounds to it. -/
def onGrid? (interval : RoundingInterval) (exponent : Int) : Option Decimal :=
  let numerator := interval.middle * Nat.pow 10 (-exponent).toNat
  let denominator := interval.unit * Nat.pow 10 exponent.toNat
  let below := numerator / denominator
  let twice := 2 * (numerator % denominator)
  let lowFirst := twice < denominator || (twice == denominator && below % 2 == 0)
  let order := if lowFirst then [below, below + 1] else [below + 1, below]
  (order.find? (fun digits => interval.holds digits exponent)).map
    (fun digits => Decimal.normalize digits exponent)

/-- Seventeen digits always suffice. -/
def shortest (interval : RoundingInterval) : Decimal :=
  let leading := interval.leading
  ((List.range 17).findSome? (fun (count : Nat) => interval.onGrid? (leading - count))).getD ⟨0, 0⟩

end RoundingInterval

/-- The shortest decimal of a finite double without its sign. -/
def shortestDecimal (value : Float) : Decimal :=
  let bits := value.toBits.toNat % Word.signedCount
  if bits = 0 then ⟨0, 0⟩ else (RoundingInterval.ofBits bits).shortest

/-- The sign bit, which zero has too. -/
def isSigned (value : Float) : Bool := value.toBits.toNat / Word.signedCount == 1

end FlowPlan
