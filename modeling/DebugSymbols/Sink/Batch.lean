import DebugSymbols.Lines

/-!
# Batches of sequence points

A sink takes sequence points column by column: five lists of equal length. The columns of a batch
can be changed one by one, so a batch may also be uneven; its points are then read up to the end of
the shortest column.
-/

namespace DebugSymbols

/-- Sequence points in columns. -/
structure Batch where
  offsets : List UInt32
  startLines : List UInt32
  startColumns : List UInt16
  endLines : List UInt32
  endColumns : List UInt16
deriving DecidableEq, Repr, Inhabited

namespace Batch

/-- The batch without points. -/
def empty : Batch := ⟨[], [], [], [], []⟩

/-- Adds points at the end of every column. -/
def extend (batch : Batch) (points : List SequencePoint) : Batch where
  offsets := batch.offsets ++ points.map (·.offset)
  startLines := batch.startLines ++ points.map (·.startLine)
  startColumns := batch.startColumns ++ points.map (·.startColumn)
  endLines := batch.endLines ++ points.map (·.endLine)
  endColumns := batch.endColumns ++ points.map (·.endColumn)

/-- Adds a point at the end of every column. -/
def push (batch : Batch) (point : SequencePoint) : Batch := batch.extend [point]

/-- The batch of a list of points. -/
def ofPoints (points : List SequencePoint) : Batch := empty.extend points

/-- The length of the first column. -/
def length (batch : Batch) : Nat := batch.offsets.length

/-- Whether the first column is empty. -/
def isEmpty (batch : Batch) : Bool := batch.offsets.isEmpty

/-- Whether all columns are equally long. -/
def isConsistent (batch : Batch) : Bool :=
  batch.startLines.length == batch.length && batch.startColumns.length == batch.length &&
    batch.endLines.length == batch.length && batch.endColumns.length == batch.length

/-- The points, up to the end of the shortest column. -/
def points (batch : Batch) : List SequencePoint :=
  let ends := batch.endLines.zip batch.endColumns
  let regions := batch.startLines.zip (batch.startColumns.zip ends)
  (batch.offsets.zip regions).map fun (offset, startLine, startColumn, endLine, endColumn) =>
    ⟨offset, startLine, startColumn, endLine, endColumn⟩

end Batch

end DebugSymbols
