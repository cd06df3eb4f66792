import DebugSymbols.Text.Hex

/-!
# Metadata tokens

A token names a row of a metadata table: the table stands in the high byte and the row in the three
low bytes. Token zero names nothing.

Token text is read by `Token.parse?`: a number in decimal, or in hexadecimal behind `0x` or `0X`,
that fits 32 bits.
-/

namespace DebugSymbols

/-- A 32-bit metadata token. -/
structure Token where
  value : UInt32
deriving DecidableEq, Repr, Inhabited

namespace Token

/-- The token that names no row. -/
def null : Token := ⟨0⟩

/-- The metadata table: the high byte. -/
def table (token : Token) : UInt8 := (token.value >>> 24).toUInt8

/-- The row within the table: the three low bytes. -/
def row (token : Token) : UInt32 := token.value &&& 0x00FFFFFF

/-- Whether the token names no row. -/
def isNull (token : Token) : Bool := token.value == 0

/-- The text of a token: `0x` and eight hexadecimal digits. -/
def text (token : Token) : String := "0x" ++ Text.paddedHex 8 token.value.toNat

/-- The text of a token together with its parts. -/
def description (token : Token) : String :=
  let table := Text.paddedHex 2 token.table.toNat
  s!"Token({token.text}, table: 0x{table}, row: {token.row.toNat})"

/-- A number below `2 ^ 32` in `base`: at least one digit, behind at most one `+`. -/
def parseNumber? (base : Nat) (chars : List Char) : Option UInt32 :=
  let digits := match chars with
    | '+' :: rest => rest
    | _ => chars
  if digits.isEmpty then none
  else match Text.ofDigits? base digits with
    | some n => if n < UInt32.size then some (UInt32.ofNat n) else none
    | none => none

/-- Reads token text: hexadecimal behind `0x` or `0X`, otherwise decimal. -/
def parse? (text : String) : Option Token :=
  let number := match text.toList with
    | '0' :: 'x' :: digits => parseNumber? 16 digits
    | '0' :: 'X' :: digits => parseNumber? 16 digits
    | digits => parseNumber? 10 digits
  number.map Token.mk

end Token

end DebugSymbols
