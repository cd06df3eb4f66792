/-!
# Hexadecimal text

Numbers are written in base sixteen in two ways: without leading zeros (offsets and lengths) and
padded to a fixed width (tokens, GUIDs, control characters). Bytes are always two digits each.
-/

namespace DebugSymbols.Text

/-- `n` in lower-case hexadecimal without leading zeros; zero is `0`. -/
def hex (n : Nat) : String := String.ofList (Nat.toDigits 16 n)

/-- The hexadecimal digits of `n`, with zeros in front up to `width` digits. -/
def paddedHexDigits (width n : Nat) : List Char :=
  let digits := Nat.toDigits 16 n
  List.replicate (width - digits.length) '0' ++ digits

/-- `n` in lower-case hexadecimal with at least `width` digits. -/
def paddedHex (width n : Nat) : String := String.ofList (paddedHexDigits width n)

/-- An offset or length as it stands in messages and in XML: `0x` and no leading zeros. -/
def hexOffset (n : UInt32) : String := "0x" ++ hex n.toNat

/-- Two lower-case digits for each byte. -/
def hexBytes (bytes : List UInt8) : String :=
  String.ofList (bytes.flatMap fun byte => paddedHexDigits 2 byte.toNat)

/-- Two upper-case digits for each byte. -/
def upperHexBytes (bytes : List UInt8) : String :=
  String.ofList (bytes.flatMap fun byte => (paddedHexDigits 2 byte.toNat).map Char.toUpper)

/-- The value of a digit in bases up to sixteen, in either case. ASCII digits only. -/
def digitValue? (c : Char) : Option Nat :=
  if '0' ≤ c ∧ c ≤ '9' then some (c.toNat - '0'.toNat)
  else if 'a' ≤ c ∧ c ≤ 'f' then some (c.toNat - 'a'.toNat + 10)
  else if 'A' ≤ c ∧ c ≤ 'F' then some (c.toNat - 'A'.toNat + 10)
  else none

/-- The number that a run of digits denotes in `base`; no number if a character is not a digit of
that base. The empty run denotes zero. -/
def ofDigits? (base : Nat) (digits : List Char) : Option Nat :=
  digits.foldlM (fun value c =>
    match digitValue? c with
    | some digit => if digit < base then some (value * base + digit) else none
    | none => none) 0

/-- Bytes from pairs of hexadecimal digits; none for an odd count or another character. -/
def bytesOfHex? : List Char → Option (List UInt8)
  | [] => some []
  | [_] => none
  | high :: low :: rest =>
    match digitValue? high, digitValue? low, bytesOfHex? rest with
    | some h, some l, some bytes => some (UInt8.ofNat (16 * h + l) :: bytes)
    | _, _, _ => none

end DebugSymbols.Text
