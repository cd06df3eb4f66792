import DebugSymbols.Metadata.Encode
import DebugSymbols.Proofs.Span

/-!
# The format of metadata blobs

A blob is its version, the number of its records and two zero bytes, and then the records. A record
is its version, its kind and two zero bytes, its size as a little-endian number, and its payload.
The size counts the eight bytes before the payload as well and is a multiple of four.

The format is stated here for blobs of any records, apart from the code that writes and reads them.
`ValidBlob` says which lists of records have a blob.
-/

namespace DebugSymbols.Metadata

open Bytes (Word)

/-- A range in a blob: its start and its end. -/
def rangeLayout (scope : Span) : List UInt8 :=
  Bytes.ofNat 4 scope.offset.toNat ++ Bytes.ofNat 4 scope.reach

/-- A class name in a blob: its code units, and two zero bytes at its end. -/
def nameLayout (name : String) : List UInt8 :=
  (Text.Utf16.encode name.toList).flatMap (fun unit => Bytes.ofNat 2 unit.toNat) ++ [0, 0]

/-- Bytes with zeros behind them, up to a multiple of four. -/
def padded (bytes : List UInt8) : List UInt8 :=
  bytes ++ List.replicate ((4 - bytes.length % 4) % 4) 0

namespace Record

/-- The payload of a record. -/
def payload : Record → List UInt8
  | iteratorClass name => padded (nameLayout name)
  | iteratorScopes scopes => Bytes.ofNat 4 scopes.length ++ scopes.flatMap rangeLayout
  | unknown _ data => data

/-- The size of a record: eight bytes and its payload. -/
def size (record : Record) : Nat := 8 + record.payload.length

/-- The bytes of a record. -/
def layout (record : Record) : List UInt8 :=
  [4, record.kind, 0, 0] ++ Bytes.ofNat 4 record.size ++ record.payload

/-- Whether a payload can be told from every other one: class names hold no NUL character, ranges
have an end, and payloads of other kinds fill their record. -/
def Sound : Record → Prop
  | iteratorClass name => '\x00' ∉ name.toList
  | iteratorScopes scopes => ∀ scope ∈ scopes, scope.reach < UInt32.size
  | unknown kind data => kind ≠ 3 ∧ kind ≠ 4 ∧ data.length % 4 = 0

instance : DecidablePred Sound
  | iteratorClass name => inferInstanceAs (Decidable ('\x00' ∉ name.toList))
  | iteratorScopes scopes => inferInstanceAs (Decidable (∀ scope ∈ scopes, _))
  | unknown kind data => inferInstanceAs (Decidable (kind ≠ 3 ∧ kind ≠ 4 ∧ data.length % 4 = 0))

/-- Whether a record can stand in a blob. -/
structure Valid (record : Record) : Prop where
  sound : record.Sound
  size_lt : record.size < UInt32.size

instance (record : Record) : Decidable record.Valid :=
  decidable_of_iff (record.Sound ∧ record.size < UInt32.size)
    ⟨fun h => ⟨h.1, h.2⟩, fun h => ⟨h.1, h.2⟩⟩

end Record

/-- The blob of a list of records. -/
def layout (records : List Record) : List UInt8 :=
  [4, UInt8.ofNat records.length, 0, 0] ++ records.flatMap Record.layout

/-- Whether a list of records has a blob. -/
structure ValidBlob (records : List Record) : Prop where
  length_le : records.length ≤ 255
  valid : ∀ record ∈ records, record.Valid

instance (records : List Record) : Decidable (ValidBlob records) :=
  decidable_of_iff (records.length ≤ 255 ∧ ∀ record ∈ records, record.Valid)
    ⟨fun h => ⟨h.1, h.2⟩, fun h => ⟨h.1, h.2⟩⟩

/-! ## Lengths -/

@[simp] theorem length_rangeLayout (scope : Span) : (rangeLayout scope).length = 8 := by
  simp [rangeLayout]

theorem length_flatMap_rangeLayout (scopes : List Span) :
    (scopes.flatMap rangeLayout).length = 8 * scopes.length := by
  induction scopes with
  | nil => rfl
  | cons scope scopes ih =>
    rw [List.flatMap_cons, List.length_append, length_rangeLayout, ih, List.length_cons]
    omega

theorem length_unitBytes (units : List UInt16) :
    (unitBytes units).length = 2 * units.length := by
  induction units with
  | nil => rfl
  | cons unit units ih =>
    rw [unitBytes, List.flatMap_cons, List.length_append, Word.length_toBytes, List.length_cons]
    rw [unitBytes] at ih
    rw [ih]
    show 2 + _ = _
    omega

theorem nameLayout_eq (name : String) :
    nameLayout name = unitBytes (Text.Utf16.encode name.toList) ++ [0, 0] := rfl

theorem length_nameLayout (name : String) :
    (nameLayout name).length = 2 * (Text.Utf16.encode name.toList).length + 2 := by
  rw [nameLayout_eq, List.length_append, length_unitBytes]
  rfl

/-- Padding ends at a multiple of four. -/
theorem length_padded_mod (bytes : List UInt8) : (padded bytes).length % 4 = 0 := by
  rw [padded, List.length_append, List.length_replicate]
  omega

/-- The payload of a sound record fills the record up to a multiple of four. -/
theorem Record.Sound.length_payload_mod {record : Record} (h : record.Sound) :
    record.payload.length % 4 = 0 := by
  cases record with
  | iteratorClass name => exact length_padded_mod _
  | iteratorScopes scopes =>
    rw [payload, List.length_append, Bytes.length_ofNat, length_flatMap_rangeLayout]
    omega
  | unknown kind data => exact h.2.2

@[simp] theorem Record.length_layout (record : Record) :
    record.layout.length = record.size := by
  rw [layout, List.length_append, List.length_append, Bytes.length_ofNat, size]
  rfl

/-! ## Words -/

/-- A number below the capacity of four bytes is stored as it is. -/
theorem toBytes_ofNat {n : Nat} (h : n < UInt32.size) :
    Word.toBytes (UInt32.ofNat n) = Bytes.ofNat 4 n := by
  show Bytes.ofNat 4 (UInt32.ofNat n).toNat = _
  rw [UInt32.toNat_ofNat_of_lt' h]

/-- A range with an end is stored as its start and its end. -/
theorem rangeLayout_eq {scope : Span} (h : scope.reach < UInt32.size) :
    rangeLayout scope =
      Word.toBytes scope.offset ++ Word.toBytes (scope.offset + scope.length) := by
  show _ = _ ++ Bytes.ofNat 4 (scope.offset + scope.length).toNat
  rw [Span.toNat_offset_add_length h]
  rfl

end DebugSymbols.Metadata
