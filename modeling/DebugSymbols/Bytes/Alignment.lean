/-!
# Alignment

Records start at multiples of an alignment. `alignUp` gives the next such position and `paddingFor`
the number of bytes up to it.
-/

namespace DebugSymbols.Bytes

/-- The least multiple of `alignment` that is at least `value`. -/
def alignUp (value alignment : Nat) : Nat := (value + (alignment - 1)) / alignment * alignment

/-- The number of bytes from `length` to the next multiple of `alignment`. -/
def paddingFor (length alignment : Nat) : Nat := (alignment - length % alignment) % alignment

end DebugSymbols.Bytes
