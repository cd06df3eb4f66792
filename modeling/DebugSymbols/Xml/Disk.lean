import DebugSymbols.Xml.Writer

/-!
# Bounded storage

A disk keeps the bytes written to it. It may have room for a number of bytes only: a text that does
not fit is kept as far as it fits, and its write fails.
-/

namespace DebugSymbols.Xml

/-- The state of a disk. -/
structure Disk where
  content : ByteArray
  /-- The number of bytes there is room for; none if there is no limit. -/
  capacity : Option Nat
  /-- Whether every flush fails. -/
  flushFails : Bool
  /-- How often the disk was flushed. -/
  flushes : Nat

namespace Disk

/-- A disk without content. -/
def blank (capacity : Option Nat) (flushFails : Bool) : Disk :=
  ⟨ByteArray.empty, capacity, flushFails, 0⟩

/-- Keeps as much of a text as there is room for. -/
def write (text : String) (disk : Disk) : Except String Unit × Disk :=
  let bytes := text.toUTF8
  match disk.capacity with
  | none => (.ok (), { disk with content := disk.content ++ bytes })
  | some capacity =>
    let room := capacity - disk.content.size
    let kept := { disk with content := disk.content ++ bytes.extract 0 room }
    if bytes.size ≤ room then (.ok (), kept) else (.error "disk full", kept)

/-- Counts a flush. -/
def flush (disk : Disk) : Except String Unit × Disk :=
  (if disk.flushFails then .error "disk gone" else .ok (),
    { disk with flushes := disk.flushes + 1 })

end Disk

/-- A disk as a device. -/
def diskDevice : Device Disk := ⟨Disk.write, Disk.flush⟩

end DebugSymbols.Xml
