import DebugSymbols.Proofs.Attempt

/-!
# Ends of ranges

A range has an end exactly if its offset and its length add up to a 32-bit number, and the end is
this number. Any other range is a fault of the tree that it is from, and so is a size that is no
32-bit number.
-/

namespace DebugSymbols

/-- Whether an error says that a tree cannot be written. -/
def SymbolError.IsInvalidTree : SymbolError → Prop
  | .invalidTree _ => True
  | _ => False

theorem FailsOnly.toUInt32 (value : Nat) :
    FailsOnly SymbolError.IsInvalidTree (DebugSymbols.toUInt32 value) := by
  rw [DebugSymbols.toUInt32]
  split
  · exact ok _
  · exact error trivial

theorem FailsOnly.stop (span : Span) : FailsOnly SymbolError.IsInvalidTree span.stop := by
  rw [Span.stop]
  split
  · exact ok _
  · exact error trivial

namespace Span

/-- Where a range ends, whether or not this is a 32-bit number. -/
def reach (span : Span) : Nat := span.offset.toNat + span.length.toNat

theorem toNat_offset_add_length {span : Span} (h : span.reach < UInt32.size) :
    (span.offset + span.length).toNat = span.reach := by
  rw [UInt32.toNat_add]
  exact Nat.mod_eq_of_lt h

theorem stop?_eq_some_iff {span : Span} {stop : UInt32} :
    span.stop? = some stop ↔ span.reach < UInt32.size ∧ span.offset + span.length = stop := by
  rw [stop?, ← reach]
  by_cases h : span.reach < UInt32.size
  · simp [h]
  · simp [h]

/-- A range has an end exactly if the end is a 32-bit number. -/
theorem stop_eq_ok_iff {span : Span} {stop : UInt32} :
    span.stop = .ok stop ↔ span.reach < UInt32.size ∧ span.offset + span.length = stop := by
  rw [← stop?_eq_some_iff, Span.stop]
  cases span.stop? <;> simp

/-- A range is its start and its end. -/
theorem offset_add_length_sub_offset (span : Span) :
    span.offset + span.length - span.offset = span.length := by
  rw [UInt32.add_comm, UInt32.add_sub_cancel]

end Span

end DebugSymbols
