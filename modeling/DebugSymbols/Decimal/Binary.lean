import DebugSymbols.Decimal.Power

/-!
# Binary floating point in exact arithmetic

A floating-point word is read as a value `m * 2 ^ q` with a natural number `m`, and a quotient of
natural numbers is rounded to the nearest word. Everything is computed in `Nat` and `Int`, so the
results are the same words on every machine.
-/

namespace DebugSymbols.Decimal

/-- An IEEE 754 binary interchange format. -/
structure BinaryFormat where
  /-- Bits of the significand, the hidden one included. -/
  precision : Nat
  /-- Bits of the exponent field. -/
  exponentBits : Nat
deriving DecidableEq, Repr

/-- The 32-bit format. -/
def single : BinaryFormat := ⟨24, 8⟩

/-- The 64-bit format. -/
def double : BinaryFormat := ⟨53, 11⟩

/-- What a floating-point word stands for. -/
inductive BinaryValue
  | notANumber
  | infinite (negative : Bool)
  /-- The number `significand * 2 ^ exponent`, negated if `negative`. -/
  | finite (negative : Bool) (significand : Nat) (exponent : Int)
deriving DecidableEq, Repr

namespace BinaryFormat

/-- The exponent of the least positive number: subnormal numbers are its multiples. -/
def leastExponent (format : BinaryFormat) : Int :=
  3 - (twoPower (format.exponentBits - 1) : Int) - format.precision

/-- The exponent field of infinities and of words that are not numbers. -/
def specialField (format : BinaryFormat) : Nat := twoPower format.exponentBits - 1

/-- The word of positive infinity. -/
def infinity (format : BinaryFormat) : Nat := format.specialField * twoPower (format.precision - 1)

/-- The bit that makes a word negative. -/
def signBit (format : BinaryFormat) : Nat :=
  twoPower (format.precision - 1 + format.exponentBits)

/-- Takes a word apart. -/
def decode (format : BinaryFormat) (word : Nat) : BinaryValue :=
  let hidden := twoPower (format.precision - 1)
  let fraction := word % hidden
  let field := word / hidden % twoPower format.exponentBits
  let negative := word / format.signBit % 2 == 1
  if field = format.specialField then
    if fraction = 0 then .infinite negative else .notANumber
  else if field = 0 then .finite negative fraction format.leastExponent
  else .finite negative (hidden + fraction) (format.leastExponent + field - 1)

/-- The quotient `numerator / denominator` in units of `2 ^ exponent`, again as a quotient. -/
def inUnits (numerator denominator : Nat) (exponent : Int) : Nat × Nat :=
  if 0 ≤ exponent then (numerator, denominator * twoPower exponent.toNat)
  else (numerator * twoPower (-exponent).toNat, denominator)

/-- The natural number nearest to a quotient; a tie goes to the even neighbour. -/
def roundToEven (numerator denominator : Nat) : Nat :=
  let below := numerator / denominator
  let twice := 2 * (numerator % denominator)
  if twice < denominator then below
  else if denominator < twice then below + 1
  else below + below % 2

/-- The exponent at which the significand of `numerator / denominator` has the full precision, or
the least exponent if it would be smaller. -/
def exponentOf (format : BinaryFormat) (numerator denominator : Nat) : Int :=
  let estimate : Int := (numerator.log2 : Int) - denominator.log2 - format.precision
  let low := max format.leastExponent estimate
  let (n, d) := inUnits numerator denominator low
  if n / d < twoPower format.precision then low else low + 1

/-- The word nearest to `numerator / denominator`, ties to even; infinity beyond the largest finite
number. The significand is added onto the exponent field, so that a significand rounded up to the
next power of two carries into it. -/
def round (format : BinaryFormat) (negative : Bool) (numerator denominator : Nat) : Nat :=
  let sign := if negative then format.signBit else 0
  if numerator = 0 then sign
  else
    let exponent := format.exponentOf numerator denominator
    let (n, d) := inUnits numerator denominator exponent
    let field := (exponent - format.leastExponent).toNat
    sign + min format.infinity (field * twoPower (format.precision - 1) + roundToEven n d)

/-- The magnitude of a finite word as a quotient; zero for other words. -/
def quotient (format : BinaryFormat) (word : Nat) : Nat × Nat :=
  match format.decode word with
  | .finite _ significand exponent => inUnits significand 1 (-exponent)
  | _ => (0, 1)

/-- Whether a word is negative. -/
def isNegative (format : BinaryFormat) (word : Nat) : Bool := word / format.signBit % 2 == 1

/-- The product of two finite words, rounded. -/
def mul (format : BinaryFormat) (a b : Nat) : Nat :=
  let (n, d) := format.quotient a
  let (n', d') := format.quotient b
  format.round (format.isNegative a != format.isNegative b) (n * n') (d * d')

/-- The quotient of two finite words, the second of them not zero, rounded. -/
def div (format : BinaryFormat) (a b : Nat) : Nat :=
  let (n, d) := format.quotient a
  let (n', d') := format.quotient b
  format.round (format.isNegative a != format.isNegative b) (n * d') (d * n')

/-- Whether a word is infinite. -/
def isInfinite (format : BinaryFormat) (word : Nat) : Bool :=
  word % format.signBit == format.infinity

end BinaryFormat

/-- A 64-bit number as the nearest 32-bit number. -/
def narrow (word : UInt64) : UInt32 :=
  match double.decode word.toNat with
  | .notANumber => 0x7FC00000
  | .infinite negative =>
    UInt32.ofNat (single.infinity + if negative then single.signBit else 0)
  | .finite negative _ _ =>
    let (n, d) := double.quotient word.toNat
    UInt32.ofNat (single.round negative n d)

end DebugSymbols.Decimal
