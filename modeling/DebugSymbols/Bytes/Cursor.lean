import DebugSymbols.Bytes.Alignment
import DebugSymbols.Bytes.Word
import DebugSymbols.Error

/-!
# Reading bytes in order

A cursor stands at a position in a sequence of bytes. A read takes the bytes behind the position and
moves past them; if there are too few of them it fails and the cursor stays where it is.
-/

namespace DebugSymbols.Bytes

/-- A position in a sequence of bytes. -/
structure Cursor where
  data : Array UInt8
  position : Nat
  position_le : position ≤ data.size

namespace Cursor

/-- A cursor before the first byte. -/
def start (data : List UInt8) : Cursor := ⟨data.toArray, 0, Nat.zero_le _⟩

/-- The number of bytes before and behind the position. -/
def length (cursor : Cursor) : Nat := cursor.data.size

/-- The number of bytes behind the position. -/
def remaining (cursor : Cursor) : Nat := cursor.data.size - cursor.position

/-- Whether there are bytes behind the position. -/
def hasMore (cursor : Cursor) : Bool := cursor.position < cursor.data.size

/-- The bytes behind the position. -/
def rest (cursor : Cursor) : List UInt8 :=
  (cursor.data.extract cursor.position cursor.data.size).toList

/-- Takes the next `count` bytes. -/
def take (cursor : Cursor) (count : Nat) : Except SymbolError (List UInt8 × Cursor) :=
  if h : cursor.position + count ≤ cursor.data.size then
    .ok ((cursor.data.extract cursor.position (cursor.position + count)).toList,
      ⟨cursor.data, cursor.position + count, h⟩)
  else .error .outOfBounds

/-- Takes the bytes up to the next multiple of `alignment`. -/
def align (cursor : Cursor) (alignment : Nat) : Except SymbolError (List UInt8 × Cursor) :=
  cursor.take (paddingFor cursor.position alignment)

/-- Takes the next integer. -/
def read (α : Type) [Word α] (cursor : Cursor) : Except SymbolError (α × Cursor) :=
  (cursor.take (Word.width α)).map fun (bytes, next) => (Word.ofBytes bytes, next)

end Cursor

end DebugSymbols.Bytes
