/-!
# Shortest decimals

A double stands for every real number that rounds to it. Its shortest decimal
is the one with the fewest digits among those numbers, and of several with that
many digits the nearest to the double itself.

## Implementation notes

The double is taken apart into `significand * 2 ^ exponent`. All comparisons are
made between natural numbers over one common denominator. For one digit, two
digits and so on up to seventeen, the two neighbours of the double on that
decimal grid are tried; the first grid with a hit decides.
-/

namespace RecordText.Decimal

/-- A decimal number `digits * 10 ^ exponent`. -/
structure Scaled where
  digits : Nat
  exponent : Int
  deriving DecidableEq, Repr

/-- A finite double without its sign: `significand * 2 ^ exponent`. -/
structure Binary where
  significand : Nat
  exponent : Int
  deriving DecidableEq, Repr

/-- The least significand of a normal double. -/
def leadingBit : Nat := 0x10000000000000

/-- The exponent of the smallest doubles. -/
def leastExponent : Int := -1074

/-- Take the magnitude of a finite double apart, given the bits of the double. -/
def Binary.ofBits (bits : Nat) : Binary :=
  let field : Nat := bits / leadingBit % 0x800
  let fraction := bits % leadingBit
  if field = 0 then { significand := fraction, exponent := leastExponent }
  else { significand := leadingBit + fraction, exponent := (field : Int) - 1075 }

/-- The numbers that round to a double, as numerators over one denominator. -/
structure Interval where
  low : Nat
  value : Nat
  high : Nat
  denominator : Nat
  /-- Whether the two ends belong to the interval. -/
  closed : Bool
  deriving Repr

/-- The interval of a double. The gap below a power of two is half as wide as the gap above. -/
def Binary.interval (binary : Binary) : Interval :=
  let narrow := binary.significand = leadingBit ∧ leastExponent < binary.exponent
  let shift := binary.exponent - 2
  let factor := Nat.pow 2 shift.toNat
  { low := (4 * binary.significand - (if narrow then 1 else 2)) * factor
    value := 4 * binary.significand * factor
    high := (4 * binary.significand + 2) * factor
    denominator := Nat.pow 2 (-shift).toNat
    closed := binary.significand % 2 = 0 }

/-- Compare `a * 10 ^ e` with the fraction `n / d`. -/
def compareScaled (a : Nat) (e : Int) (n d : Nat) : Ordering :=
  compare (a * Nat.pow 10 e.toNat * d) (n * Nat.pow 10 (-e).toNat)

/-- Whether `a * 10 ^ e` lies in the interval. -/
def Interval.holds (interval : Interval) (a : Nat) (e : Int) : Bool :=
  let below := compareScaled a e interval.low interval.denominator
  let above := compareScaled a e interval.high interval.denominator
  (below == .gt || (interval.closed && below == .eq)) &&
    (above == .lt || (interval.closed && above == .eq))

/-- The number of decimal digits of a number, zero having none. -/
def digitCount (n : Nat) : Nat :=
  if n = 0 then 0 else (Nat.toDigits 10 n).length

/-- The least number of tenfold steps, at most `steps`, that lifts `n` to at least `d`. -/
def liftCount (d : Nat) : Nat → Nat → Nat
  | 0, _ => 0
  | steps + 1, n => if d ≤ n then 0 else liftCount d steps (n * 10) + 1

/-- The position of the decimal point: `10 ^ (p - 1) ≤ n / d < 10 ^ p`. -/
def pointPosition (n d : Nat) : Int :=
  if d ≤ n then (digitCount (n / d) : Int) else 1 - (liftCount d 400 n : Int)

/-- The hit on the grid with exponent `e`, if there is one: the nearer neighbour, or the even one. -/
def Interval.hit? (interval : Interval) (e : Int) : Option Nat :=
  let down := interval.value * Nat.pow 10 (-e).toNat / (interval.denominator * Nat.pow 10 e.toNat)
  let up := down + 1
  match interval.holds down e, interval.holds up e with
  | true, true =>
    match compareScaled (2 * down + 1) e (2 * interval.value) interval.denominator with
    | .gt => some down
    | .lt => some up
    | .eq => some (if down % 2 = 0 then down else up)
  | true, false => some down
  | false, true => some up
  | false, false => none

/-- The first hit on grids of increasingly many digits. -/
def Interval.firstHit (interval : Interval) (point : Int) : Nat → Nat → Scaled
  | 0, count =>
    let e := point - count
    { digits := interval.value * Nat.pow 10 (-e).toNat / (interval.denominator * Nat.pow 10 e.toNat),
      exponent := e }
  | more + 1, count =>
    match interval.hit? (point - count) with
    | some digits => { digits, exponent := point - count }
    | none => firstHit interval point more (count + 1)

/-- Drop the trailing zeros of the digits, at most `steps` of them. -/
def Scaled.normalize : Nat → Scaled → Scaled
  | 0, scaled => scaled
  | steps + 1, scaled =>
    if scaled.digits ≠ 0 ∧ scaled.digits % 10 = 0 then
      normalize steps { digits := scaled.digits / 10, exponent := scaled.exponent + 1 }
    else scaled

/-- The shortest decimal of a double's magnitude. -/
def Binary.shortest (binary : Binary) : Scaled :=
  if binary.significand = 0 then { digits := 0, exponent := 0 }
  else
    let interval := binary.interval
    let point := pointPosition interval.value interval.denominator
    (interval.firstHit point 17 1).normalize 20

end RecordText.Decimal
