import DebugSymbols.Document

/-!
# Line tables

A sequence point ties a code offset to a region of a source file. The points of a method come in
groups, one group for a stretch of points in one document, and their order is the compiler's. A
point on the reserved line `0xFEEFEE` is hidden: it marks code without a source.
-/

namespace DebugSymbols

/-- The reserved line of hidden points. -/
def hiddenLine : UInt32 := 0x00FEEFEE

/-- A code offset and the source region it belongs to. -/
structure SequencePoint where
  offset : UInt32
  startLine : UInt32
  startColumn : UInt16
  endLine : UInt32
  endColumn : UInt16
deriving DecidableEq, Repr, Inhabited

namespace SequencePoint

/-- A hidden point. -/
def hidden (offset : UInt32) : SequencePoint := ⟨offset, hiddenLine, 0, hiddenLine, 0⟩

/-- Whether a point is hidden, which its start line alone decides. -/
def isHidden (point : SequencePoint) : Bool := point.startLine == hiddenLine

end SequencePoint

/-- Consecutive points in one document. -/
structure LineGroup where
  document : DocumentId
  points : List SequencePoint
deriving DecidableEq, Repr, Inhabited

namespace LineGroup

/-- The first point at a code offset. -/
def find? (group : LineGroup) (offset : UInt32) : Option SequencePoint :=
  group.points.find? fun point => point.offset == offset

/-- Whether the group has no points. -/
def isEmpty (group : LineGroup) : Bool := group.points.isEmpty

end LineGroup

end DebugSymbols
