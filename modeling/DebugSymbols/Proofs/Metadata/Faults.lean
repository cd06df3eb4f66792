import DebugSymbols.Proofs.Metadata.Decode

/-!
# What reading fails with

Reading a blob fails out of bounds or with a fault of the blob, and with nothing else. The payload
of a record is taken as a whole, so what is at fault in it is found in bytes that are there. Only
the count of a scopes record is read without a look at how long the payload is: if the payload is
too short for it, reading fails out of bounds.
-/

namespace DebugSymbols

/-- Whether an error names a fault of a blob. -/
def SymbolError.IsMalformed : SymbolError → Prop
  | .malformed _ => True
  | _ => False

/-- Whether an error is one that a blob can be answered with. -/
def SymbolError.OfBlob : SymbolError → Prop
  | .outOfBounds | .malformed _ => True
  | _ => False

theorem SymbolError.IsMalformed.ofBlob : ∀ error : SymbolError, error.IsMalformed → error.OfBlob
  | .malformed _, _ => trivial

theorem SymbolError.OfBlob.eq_or_isMalformed :
    ∀ error : SymbolError, error.OfBlob → error = .outOfBounds ∨ error.IsMalformed
  | .outOfBounds, _ => Or.inl rfl
  | .malformed _, _ => Or.inr trivial

namespace Metadata

open Bytes (Cursor Word)

variable {α β : Type} {allowed : SymbolError → Prop}

/-- A check fails with its fault, and what follows it with its own errors. -/
theorem failsOnly_check {p : Prop} [Decidable p] {fault : BlobFault}
    {next : α → Except SymbolError β} {result : Except SymbolError β}
    (hfault : allowed (.malformed fault)) (hresult : ¬ p → FailsOnly allowed result) :
    FailsOnly allowed (if p then malformed fault >>= next else result) := by
  by_cases h : p
  · rw [if_pos h]
    exact FailsOnly.error hfault
  · rw [if_neg h]
    exact hresult h

/-! ## Payloads -/

theorem failsOnly_decodeIteratorClass (payload : List UInt8) :
    FailsOnly SymbolError.IsMalformed (decodeIteratorClass payload) := by
  simp only [decodeIteratorClass]
  refine failsOnly_check trivial fun _ => failsOnly_check trivial fun _ =>
    failsOnly_check trivial fun _ => failsOnly_check trivial fun _ => ?_
  split
  · exact FailsOnly.error trivial
  · exact FailsOnly.ok _

/-- Ranges whose bytes are there are read, or one of them ends before it starts. -/
theorem failsOnly_decodeRanges {count : Nat} {cursor : Cursor}
    (h : 8 * count ≤ cursor.rest.length) :
    FailsOnly SymbolError.IsMalformed (decodeRanges count cursor) := by
  induction count generalizing cursor with
  | zero => exact FailsOnly.ok _
  | succ count ih =>
    have hwidth : Word.width UInt32 = 4 := rfl
    have hroom : Word.width UInt32 ≤ cursor.rest.length := by omega
    obtain ⟨start, middle, hstart⟩ := Cursor.exists_read UInt32 hroom
    have hmiddle := Cursor.length_rest_of_read hstart
    have hroom' : Word.width UInt32 ≤ middle.rest.length := by omega
    obtain ⟨stop, last, hstop⟩ := Cursor.exists_read UInt32 hroom'
    have hlast := Cursor.length_rest_of_read hstop
    simp only [decodeRanges, hstart, hstop, ok_bind]
    exact failsOnly_check trivial fun _ => (ih (by omega)).bind fun _ => FailsOnly.ok _

/-- A payload that holds a count holds as many ranges, or the count is at fault. -/
theorem failsOnly_decodeIteratorScopes {payload : List UInt8} (h : 4 ≤ payload.length) :
    FailsOnly SymbolError.IsMalformed (decodeIteratorScopes payload) := by
  have hwidth : Word.width UInt32 = 4 := rfl
  have hstart : Word.width UInt32 ≤ (Cursor.start payload).rest.length := by
    rw [Cursor.rest_start]
    omega
  obtain ⟨count, cursor, hcount⟩ := Cursor.exists_read UInt32 hstart
  have hrest := Cursor.length_rest_of_read hcount
  rw [Cursor.rest_start] at hrest
  rw [decodeIteratorScopes, hcount]
  exact failsOnly_check trivial fun hsize =>
    (failsOnly_decodeRanges (by omega)).bind fun _ => FailsOnly.ok _

/-- A payload that is too short for a count is out of bounds. -/
theorem decodeIteratorScopes_eq_outOfBounds {payload : List UInt8} (h : payload.length < 4) :
    decodeIteratorScopes payload = .error .outOfBounds := by
  have hstart : (Cursor.start payload).rest.length < Word.width UInt32 := by
    rw [Cursor.rest_start]
    exact h
  rw [decodeIteratorScopes, Cursor.read_eq_outOfBounds UInt32 hstart]
  rfl

/-- Every fault in a payload is named, unless it is the payload of a scopes record without a count.
-/
theorem failsOnly_decodePayload {kind : UInt8} {payload : List UInt8}
    (h : kind = 3 → 4 ≤ payload.length) :
    FailsOnly SymbolError.IsMalformed (decodePayload kind payload) := by
  rw [decodePayload]
  split
  · exact failsOnly_decodeIteratorClass payload
  next hkind =>
    exact failsOnly_decodeIteratorScopes (h (RecordKind.code_of_ofCode? hkind).symm)
  · exact FailsOnly.ok _

theorem decodePayload_eq_outOfBounds_iff {kind : UInt8} {payload : List UInt8} :
    decodePayload kind payload = .error .outOfBounds ↔ kind = 3 ∧ payload.length < 4 := by
  constructor
  · intro h
    by_contra hnot
    have hcount : kind = 3 → 4 ≤ payload.length := fun hkind =>
      Nat.not_lt.1 fun hlt => hnot ⟨hkind, hlt⟩
    exact failsOnly_decodePayload hcount _ h
  · rintro ⟨rfl, hlt⟩
    exact decodeIteratorScopes_eq_outOfBounds hlt

theorem failsOnly_ofBlob_decodePayload (kind : UInt8) (payload : List UInt8) :
    FailsOnly SymbolError.OfBlob (decodePayload kind payload) := by
  by_cases h : kind = 3 ∧ payload.length < 4
  · rw [decodePayload_eq_outOfBounds_iff.2 h]
    exact FailsOnly.error trivial
  · exact (failsOnly_decodePayload fun hkind => Nat.not_lt.1 fun hlt => h ⟨hkind, hlt⟩).mono
      SymbolError.IsMalformed.ofBlob

/-! ## Records and blobs -/

theorem failsOnly_skipPadding (cursor : Cursor) :
    FailsOnly SymbolError.OfBlob (skipPadding cursor) := by
  simp only [skipPadding]
  exact (Cursor.failsOnly_take trivial cursor _).bind fun _ =>
    failsOnly_check trivial fun _ => FailsOnly.ok _

theorem failsOnly_decodeRecord (cursor : Cursor) :
    FailsOnly SymbolError.OfBlob (decodeRecord cursor) := by
  simp only [decodeRecord]
  exact (Cursor.failsOnly_read trivial UInt8 cursor).bind fun _ => failsOnly_check trivial fun _ =>
    (Cursor.failsOnly_read trivial UInt8 _).bind fun _ => (failsOnly_skipPadding _).bind fun _ =>
    (Cursor.failsOnly_read trivial UInt32 _).bind fun _ => failsOnly_check trivial fun _ =>
    (Cursor.failsOnly_take trivial _ _).bind fun _ =>
    (failsOnly_ofBlob_decodePayload _ _).bind fun _ => FailsOnly.ok _

theorem failsOnly_decodeRecords (count : Nat) (cursor : Cursor) :
    FailsOnly SymbolError.OfBlob (decodeRecords count cursor) := by
  induction count generalizing cursor with
  | zero => exact FailsOnly.ok _
  | succ count ih =>
    exact (failsOnly_decodeRecord cursor).bind fun _ => (ih _).bind fun _ => FailsOnly.ok _

/-- Reading a blob fails out of bounds or with a fault of the blob, and with nothing else. -/
theorem failsOnly_decode (data : List UInt8) : FailsOnly SymbolError.OfBlob (decode data) := by
  simp only [decode]
  exact (Cursor.failsOnly_read trivial UInt8 _).bind fun _ => failsOnly_check trivial fun _ =>
    (Cursor.failsOnly_read trivial UInt8 _).bind fun _ => (failsOnly_skipPadding _).bind fun _ =>
    (failsOnly_decodeRecords _ _).bind fun _ => failsOnly_check trivial fun _ => FailsOnly.ok _

end Metadata

end DebugSymbols
