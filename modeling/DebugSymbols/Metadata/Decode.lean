import DebugSymbols.Bytes.Cursor
import DebugSymbols.Metadata.Encode

/-!
# Reading metadata blobs

Reading is strict: padding must be zero and no longer than needed, counts must agree with sizes, and
nothing may follow the last record. Bytes that end before what they announce are out of bounds;
every other fault is named.
-/

namespace DebugSymbols.Metadata

open Bytes (Cursor)

/-- Fails with a fault of the blob. -/
def malformed {α : Type} (fault : BlobFault) : Except SymbolError α := .error (.malformed fault)

/-- Passes the zero bytes up to the next multiple of four. -/
def skipPadding (cursor : Cursor) : Except SymbolError Cursor := do
  let (padding, cursor) ← cursor.align 4
  if padding.any (· != 0) then malformed (.headerPadding cursor.position)
  return cursor

/-- The code units in a payload; a last single byte is left out. -/
def unitsOf : List UInt8 → List UInt16
  | low :: high :: rest => Bytes.Word.ofBytes [low, high] :: unitsOf rest
  | _ => []

/-- Reads the payload of a class record. -/
def decodeIteratorClass (payload : List UInt8) : Except SymbolError Record := do
  if payload.length % 2 ≠ 0 then malformed .oddClassName
  let units := unitsOf payload
  let name := units.takeWhile (· != 0)
  if name.length = units.length then malformed .unterminatedClassName
  let padding := payload.drop (2 * (name.length + 1))
  if padding.any (· != 0) then malformed .classNamePadding
  if 4 ≤ padding.length then malformed (.excessClassNamePadding padding.length)
  match Text.Utf16.decode? name with
  | none => malformed .classNameEncoding
  | some chars => return .iteratorClass (String.ofList chars)

/-- Reads the next `count` ranges. -/
def decodeRanges : Nat → Cursor → Except SymbolError (List Span)
  | 0, _ => .ok []
  | count + 1, cursor => do
    let (start, cursor) ← cursor.read UInt32
    let (stop, cursor) ← cursor.read UInt32
    if stop < start then malformed (.invertedScope start stop)
    let rest ← decodeRanges count cursor
    return ⟨start, stop - start⟩ :: rest

/-- Reads the payload of a scopes record. -/
def decodeIteratorScopes (payload : List UInt8) : Except SymbolError Record := do
  let (count, cursor) ← (Cursor.start payload).read UInt32
  if 8 * count.toNat + 4 ≠ payload.length then
    malformed (.scopeCount count.toNat payload.length)
  let scopes ← decodeRanges count.toNat cursor
  return .iteratorScopes scopes

/-- Reads the payload of a record of the given kind. -/
def decodePayload (kind : UInt8) (payload : List UInt8) : Except SymbolError Record :=
  match RecordKind.ofCode? kind with
  | some .forwardIterator => decodeIteratorClass payload
  | some .iteratorScopes => decodeIteratorScopes payload
  | _ => .ok (.unknown kind payload)

/-- Reads one record. -/
def decodeRecord (cursor : Cursor) : Except SymbolError (Record × Cursor) := do
  let start := cursor.position
  let (found, cursor) ← cursor.read UInt8
  if found ≠ version then malformed (.recordVersion found)
  let (kind, cursor) ← cursor.read UInt8
  let cursor ← skipPadding cursor
  let (size, cursor) ← cursor.read UInt32
  if size.toNat < recordHeadSize ∨ size.toNat % 4 ≠ 0 then
    malformed (.recordSize size.toNat start)
  let (payload, cursor) ← cursor.take (size.toNat - recordHeadSize)
  let record ← decodePayload kind payload
  return (record, cursor)

/-- Reads the next `count` records. -/
def decodeRecords : Nat → Cursor → Except SymbolError (List Record × Cursor)
  | 0, cursor => .ok ([], cursor)
  | count + 1, cursor => do
    let (record, cursor) ← decodeRecord cursor
    let (rest, cursor) ← decodeRecords count cursor
    return (record :: rest, cursor)

/-- Reads a blob. -/
def decode (data : List UInt8) : Except SymbolError (List Record) := do
  let (found, cursor) ← (Cursor.start data).read UInt8
  if found ≠ version then malformed (.version found)
  let (count, cursor) ← cursor.read UInt8
  let cursor ← skipPadding cursor
  let (records, cursor) ← decodeRecords count.toNat cursor
  if cursor.hasMore then malformed (.trailingBytes cursor.remaining count.toNat)
  return records

end DebugSymbols.Metadata
