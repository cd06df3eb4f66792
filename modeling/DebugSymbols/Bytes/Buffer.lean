import DebugSymbols.Bytes.Word
import DebugSymbols.Error

/-!
# Integers inside a buffer

A buffer is a sequence of bytes of fixed length in which integers are read and written in place. An
access at an offset succeeds if the bytes of the integer lie inside the buffer, and gives the offset
behind it.
-/

namespace DebugSymbols.Bytes

variable {α : Type} [Word α]

/-- Reads the integer at an offset; gives it together with the offset behind it. -/
def readAt (α : Type) [Word α] (buffer : List UInt8) (offset : Nat) :
    Except SymbolError (α × Nat) :=
  if offset + Word.width α ≤ buffer.length then
    .ok (Word.ofBytes ((buffer.drop offset).take (Word.width α)), offset + Word.width α)
  else .error .outOfBounds

/-- Writes an integer at an offset; gives the buffer together with the offset behind it. -/
def writeAt (buffer : List UInt8) (offset : Nat) (value : α) :
    Except SymbolError (List UInt8 × Nat) :=
  if offset + Word.width α ≤ buffer.length then
    .ok (buffer.take offset ++ Word.toBytes value ++ buffer.drop (offset + Word.width α),
      offset + Word.width α)
  else .error .outOfBounds

end DebugSymbols.Bytes
