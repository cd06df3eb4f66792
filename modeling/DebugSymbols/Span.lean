import DebugSymbols.Text.Hex

/-!
# Code ranges

Scopes cover half-open ranges of code offsets, given by an offset and a length. A range is sound if
its end is a 32-bit offset as well.
-/

namespace DebugSymbols

/-- A range of code: `length` bytes from `offset` on. -/
structure Span where
  offset : UInt32
  length : UInt32
deriving DecidableEq, Repr, Inhabited

namespace Span

/-- The end of a range, which it does not hold; none beyond 32 bits. -/
def stop? (span : Span) : Option UInt32 :=
  if span.offset.toNat + span.length.toNat < UInt32.size then some (span.offset + span.length)
  else none

/-- Whether both ranges have an end and the second lies within the first. An empty range at the very
end of another lies within it. -/
def contains (outer inner : Span) : Bool :=
  match outer.stop?, inner.stop? with
  | some stop, some innerStop => outer.offset ≤ inner.offset && innerStop ≤ stop
  | _, _ => false

/-- A range in messages: offset and length. -/
def text (span : Span) : String := s!"{Text.hexOffset span.offset}+{Text.hexOffset span.length}"

end Span

end DebugSymbols
