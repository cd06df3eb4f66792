import DebugSymbols.Decimal.Binary

/-!
# Shortest decimals

The shortest decimal of a binary number is the decimal with the fewest digits among those that round
to that number, and among them the one nearest to it. The decimals that round to `m * 2 ^ q` form an
interval that reaches half way to both neighbours; its ends belong to it if `m` is even.

A decimal with the fewest digits lies on the coarsest grid `10 ^ k` with a point in the interval. On
each grid only the two neighbours of the number itself are candidates: if any point of the grid lies
in the interval then one of them does.
-/

namespace DebugSymbols.Decimal

/-- Where a number half way between two candidates goes. -/
inductive Tie
  | up
  | even
deriving DecidableEq, Repr

/-- A number together with the ends of the interval that rounds to it, over one denominator. -/
structure RoundingInterval where
  low : Nat
  value : Nat
  high : Nat
  denominator : Nat
  /-- Whether the ends belong to the interval. -/
  closed : Bool
deriving Repr

namespace RoundingInterval

/-- The interval of `significand * 2 ^ exponent`. Below a power of two the neighbours are twice as
close as above it, unless the exponent is the least one. -/
def of (format : BinaryFormat) (significand : Nat) (exponent : Int) : RoundingInterval :=
  let atPower := significand = twoPower (format.precision - 1) ∧ format.leastExponent < exponent
  let scale := twoPower (exponent - 2).toNat
  { low := (4 * significand - if atPower then 1 else 2) * scale
    value := 4 * significand * scale
    high := (4 * significand + 2) * scale
    denominator := twoPower (2 - exponent).toNat
    closed := significand % 2 == 0 }

/-- The interval in units of `10 ^ exponent`. -/
def inUnits (interval : RoundingInterval) (exponent : Int) : RoundingInterval :=
  let scale := tenPower (-exponent).toNat
  { interval with
    low := interval.low * scale
    value := interval.value * scale
    high := interval.high * scale
    denominator := interval.denominator * tenPower exponent.toNat }

/-- Whether the natural number `n` lies in the interval. -/
def holds (interval : RoundingInterval) (n : Nat) : Bool :=
  let scaled := n * interval.denominator
  if interval.closed then interval.low ≤ scaled && scaled ≤ interval.high
  else interval.low < scaled && scaled < interval.high

/-- The natural number in the interval that is nearest to its value, if there is one. -/
def nearest? (tie : Tie) (interval : RoundingInterval) : Option Nat :=
  let below := interval.value / interval.denominator
  let twice := 2 * (interval.value % interval.denominator)
  let upper := below + 1
  match interval.holds below, interval.holds upper with
  | false, false => none
  | true, false => some below
  | false, true => some upper
  | true, true =>
    if twice < interval.denominator then some below
    else if interval.denominator < twice then some upper
    else match tie with
      | .up => some upper
      | .even => some (below + below % 2)

end RoundingInterval

/-- A bound on the decimal exponent of the leading digit of `numerator / denominator`. -/
def leadingExponentBound (numerator denominator : Nat) : Int :=
  ((numerator.log2 : Int) - denominator.log2 + 1) * 30103 / 100000 + 1

/-- A positive decimal number `digits * 10 ^ exponent`. -/
structure Digits where
  digits : Nat
  exponent : Int
deriving DecidableEq, Repr

/-- The shortest decimal of a positive number `significand * 2 ^ exponent`. The grids are tried from
one above the leading digit downwards; the twenty finest of them end below the distance to the
neighbours in every format up to the 64-bit one. -/
def shortest (format : BinaryFormat) (tie : Tie) (significand : Nat) (exponent : Int) : Digits :=
  let interval := RoundingInterval.of format significand exponent
  let bound := leadingExponentBound interval.value interval.denominator
  let tried := (List.range 20).findSome? fun (i : Nat) =>
    let grid := bound - i
    ((interval.inUnits grid).nearest? tie).map fun digits => Digits.mk digits grid
  tried.getD ⟨0, 0⟩

end DebugSymbols.Decimal
