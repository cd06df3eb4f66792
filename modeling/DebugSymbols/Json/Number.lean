import DebugSymbols.Decimal.Spelling
import DebugSymbols.Json.Fault

/-!
# JSON numbers

An integer literal that fits 64 bits, with a sign or without, is an integer. Every other literal is
read as a 64-bit floating-point number: the digits that fit a 64-bit significand, scaled by a power
of ten. Both steps round, so the result may differ from the nearest number in its last place.
-/

namespace DebugSymbols.Json

/-- The parts of a number literal; digits in the order of the text. -/
structure Literal where
  negative : Bool
  whole : List Nat
  fraction : Option (List Nat)
  /-- The exponent: whether it is negative, and its digits. -/
  exponent : Option (Bool × List Nat)
deriving DecidableEq, Repr

/-- The value of a number. -/
inductive Number
  | integer (value : Int)
  /-- A finite 64-bit floating-point word. -/
  | float (word : UInt64)
deriving DecidableEq, Repr

namespace Number

/-- The least number that is too large for a significand. -/
def significandLimit : Nat := UInt64.size

/-- Appends digits to a significand as long as it stays below the limit; gives the significand and
the number of digits left out. -/
def significand (value : Nat) : List Nat → Nat × Nat
  | [] => (value, 0)
  | digit :: rest =>
    if value * 10 + digit < significandLimit then significand (value * 10 + digit) rest
    else (value, rest.length + 1)

/-- The largest power of ten that a floating-point number can hold. -/
def largestPower : Nat := 308

/-- The floating-point word of a natural number. -/
def ofNat (n : Nat) : Nat := Decimal.double.round false n 1

/-- Scales a word by ten to the given exponent; a number too large is ill-formed. An exponent beyond
the largest power takes more than one step. -/
def scale (word : Nat) (exponent : Int) : Except Fault Nat :=
  if 0 ≤ exponent then
    if exponent ≤ largestPower then
      let scaled := Decimal.double.mul word (ofNat (Decimal.tenPower exponent.toNat))
      if Decimal.double.isInfinite scaled then .error .illFormed else .ok scaled
    else if word = 0 then .ok 0
    else .error .illFormed
  else if -exponent ≤ largestPower then
    .ok (Decimal.double.div word (ofNat (Decimal.tenPower (-exponent).toNat)))
  else if word = 0 then .ok 0
  else
    scale (Decimal.double.div word (ofNat (Decimal.tenPower largestPower)))
      (exponent + largestPower)
termination_by (-exponent).toNat
decreasing_by
  simp only [largestPower] at *
  omega

/-- The number that digits denote. -/
def ofDigits (digits : List Nat) : Nat := digits.foldl (fun value digit => value * 10 + digit) 0

/-- The largest exponent that is taken at its value. -/
def exponentLimit : Nat := Int32.maxValue.toInt.toNat

/-- A sum kept within 32 bits, sign included. -/
def saturate (exponent : Int) : Int :=
  max Int32.minValue.toInt (min exponent Int32.maxValue.toInt)

/-- A floating-point number with the sign of its literal. -/
def signed (negative : Bool) (word : Nat) : Number :=
  .float (UInt64.ofNat (word + if negative then Decimal.double.signBit else 0))

end Number

namespace Literal

/-- The value of a literal with a fraction or an exponent, or of an integer too large. -/
def readFloat (literal : Literal) : Except Fault Number :=
  let (whole, dropped) := Number.significand 0 literal.whole
  let fraction := literal.fraction.getD []
  let (significand, unread) := Number.significand whole fraction
  let places : Int := dropped - ((fraction.length : Int) - unread)
  let scaled (exponent : Int) : Except Fault Number :=
    (Number.scale (Number.ofNat significand) exponent).map (Number.signed literal.negative)
  match literal.exponent with
  | none => scaled places
  | some (below, digits) =>
    let exponent := Number.ofDigits digits
    if Number.exponentLimit < exponent then
      if significand ≠ 0 ∧ !below then .error .illFormed
      else .ok (Number.signed literal.negative 0)
    else scaled (Number.saturate (if below then places - exponent else places + exponent))

/-- The value of a literal. Minus zero is no integer. -/
def read (literal : Literal) : Except Fault Number :=
  let whole := Number.ofDigits literal.whole
  if literal.fraction.isNone && literal.exponent.isNone then
    if literal.negative then
      if 0 < whole ∧ Int64.minValue.toInt ≤ -whole then .ok (.integer (-whole))
      else literal.readFloat
    else if whole < Number.significandLimit then .ok (.integer whole)
    else literal.readFloat
  else literal.readFloat

end Literal

/-- The text of a number. -/
def Number.text : Number → String
  | .integer value => toString value
  | .float word => Decimal.Spelling.ofJson.spell Decimal.double word.toNat

end DebugSymbols.Json
