import DebugSymbols.Decimal.Shortest

/-!
# Spelling of floating-point numbers

A spelling fixes how the shortest decimal of a number is written: which leading exponents are
written positionally, whether a whole number has a fractional part, and which way ties go. There are
two of them. Constants are spelled positionally whatever their size; numbers in JSON text have a
fractional part and an exponent if they are very large or very small.
-/

namespace DebugSymbols.Decimal

/-- The decisions of a number format. -/
structure Spelling where
  tie : Tie
  /-- Whether a number whose leading digit stands for `10 ^ exponent` is written positionally. -/
  isPositional : Int → Bool
  /-- What follows a whole number that is written positionally. -/
  wholeMark : String

namespace Spelling

/-- Shortest digits, always positional, nothing after a whole number, ties up. -/
def ofConstant : Spelling := ⟨.up, fun _ => true, ""⟩

/-- Shortest digits, positional from `10 ^ -5` to below `10 ^ 16`, `.0` after a whole number, ties
to even. -/
def ofJson : Spelling := ⟨.even, fun exponent => -5 ≤ exponent && exponent ≤ 15, ".0"⟩

/-- Digits with a decimal point at the place that the exponent says. -/
def positional (spelling : Spelling) (digits : List Char) (exponent : Int) : String :=
  if 0 ≤ exponent then
    String.ofList (digits ++ List.replicate exponent.toNat '0') ++ spelling.wholeMark
  else
    let places := (-exponent).toNat
    if places < digits.length then
      let whole := digits.take (digits.length - places)
      String.ofList (whole ++ '.' :: digits.drop (digits.length - places))
    else
      String.ofList ('0' :: '.' :: (List.replicate (places - digits.length) '0' ++ digits))

/-- One digit, the others behind a point, and the exponent with its sign. -/
def scientific (digits : List Char) (leading : Int) : String :=
  let fraction := match digits with
    | [] => []
    | [first] => [first]
    | first :: rest => first :: '.' :: rest
  let sign := if leading < 0 then "-" else "+"
  String.ofList fraction ++ "e" ++ sign ++ String.ofList (Nat.toDigits 10 leading.natAbs)

/-- The text of a word of the given format. -/
def spell (spelling : Spelling) (format : BinaryFormat) (word : Nat) : String :=
  match format.decode word with
  | .notANumber => "NaN"
  | .infinite negative => if negative then "-inf" else "inf"
  | .finite negative significand exponent =>
    let sign := if negative then "-" else ""
    if significand = 0 then sign ++ "0" ++ spelling.wholeMark
    else
      let decimal := shortest format spelling.tie significand exponent
      let digits := Nat.toDigits 10 decimal.digits
      let leading := decimal.exponent + digits.length - 1
      if spelling.isPositional leading then
        sign ++ spelling.positional digits decimal.exponent
      else sign ++ scientific digits leading

end Spelling

end DebugSymbols.Decimal
