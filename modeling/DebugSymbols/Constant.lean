import DebugSymbols.Decimal.Spelling
import DebugSymbols.Token

/-!
# Constants

A constant is a name with a value that the debugger shows. Floating-point values are kept as words,
so that every value, the ones that are no numbers included, is a value like any other.
-/

namespace DebugSymbols

/-- The value of a constant. -/
inductive ConstantValue
  | null
  | boolean (value : Bool)
  | i1 (value : Int8)
  | u1 (value : UInt8)
  | i2 (value : Int16)
  | u2 (value : UInt16)
  | i4 (value : Int32)
  | u4 (value : UInt32)
  | i8 (value : Int64)
  | u8 (value : UInt64)
  /-- A 32-bit floating-point word. -/
  | r4 (word : UInt32)
  /-- A 64-bit floating-point word. -/
  | r8 (word : UInt64)
  | string (value : String)
deriving DecidableEq, Repr, Inhabited

namespace ConstantValue

/-- The name of a value's type. -/
def kind : ConstantValue → String
  | null => "Null"
  | boolean _ => "Boolean"
  | i1 _ => "I1"
  | u1 _ => "U1"
  | i2 _ => "I2"
  | u2 _ => "U2"
  | i4 _ => "I4"
  | u4 _ => "U4"
  | i8 _ => "I8"
  | u8 _ => "U8"
  | r4 _ => "R4"
  | r8 _ => "R8"
  | string _ => "String"

/-- The text of a truth value. -/
def booleanText (value : Bool) : String := if value then "true" else "false"

/-- The text of an integer. -/
def integerText (value : Int) : String :=
  let digits := String.ofList (Nat.toDigits 10 value.natAbs)
  if value < 0 then "-" ++ digits else digits

/-- The text of a value. -/
def text : ConstantValue → String
  | null => "null"
  | boolean value => booleanText value
  | i1 value => integerText value.toInt
  | u1 value => integerText value.toNat
  | i2 value => integerText value.toInt
  | u2 value => integerText value.toNat
  | i4 value => integerText value.toInt
  | u4 value => integerText value.toNat
  | i8 value => integerText value.toInt
  | u8 value => integerText value.toNat
  | r4 word => Decimal.Spelling.ofConstant.spell Decimal.single word.toNat
  | r8 word => Decimal.Spelling.ofConstant.spell Decimal.double word.toNat
  | string value => value

end ConstantValue

/-- A named constant. -/
structure Constant where
  name : String
  value : ConstantValue
  /-- The signature of the constant. -/
  token : Token
deriving DecidableEq, Repr, Inhabited

end DebugSymbols
