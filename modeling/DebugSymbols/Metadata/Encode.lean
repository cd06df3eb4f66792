import DebugSymbols.Bytes.Alignment
import DebugSymbols.Bytes.Word
import DebugSymbols.Error
import DebugSymbols.Metadata.Record
import DebugSymbols.Text.Utf16

/-!
# Writing metadata blobs

A blob starts with the version, the number of records and two zero bytes. Each record starts with
the version, its kind, two zero bytes and its size, which counts this head and is a multiple of
four. The encoders here write blobs of one record.
-/

namespace DebugSymbols.Metadata

/-- The head of a blob with `count` records. -/
def blobHead (count : UInt8) : List UInt8 := [version, count, 0, 0]

/-- The head of a record. -/
def recordHead (kind : UInt8) (size : UInt32) : List UInt8 :=
  [version, kind, 0, 0] ++ Bytes.Word.toBytes size

/-- The code units of a class name. One NUL character at the very end is taken for the terminator;
none if there is another one. -/
def classNameUnits? (name : String) : Option (List UInt16) :=
  let chars := name.toList
  let text := if chars.getLast? = some '\x00' then chars.dropLast else chars
  if '\x00' ∈ text then none else some (Text.Utf16.encode text)

/-- The bytes of code units. -/
def unitBytes (units : List UInt16) : List UInt8 := units.flatMap Bytes.Word.toBytes

/-- The payload of a class record: the name, its terminator, and zeros up to a multiple of four. -/
def classPayload (units : List UInt16) : List UInt8 :=
  let text := unitBytes units ++ [0, 0]
  text ++ List.replicate (Bytes.paddingFor text.length 4) 0

/-- The blob that names the class of an iterator. -/
def encodeIteratorClass (name : String) : Except SymbolError (List UInt8) :=
  match classNameUnits? name with
  | none => .error (.invalidTree (.nulInClassName name))
  | some units => do
    let size ← toUInt32 (Bytes.alignUp (recordHeadSize + 2 + 2 * units.length) 4)
    return blobHead 1 ++ recordHead RecordKind.forwardIterator.code size ++ classPayload units

/-- A range as its start and its end. -/
def rangeBytes (scope : Span) : Except SymbolError (List UInt8) := do
  let stop ← scope.stop
  return Bytes.Word.toBytes scope.offset ++ Bytes.Word.toBytes stop

/-- The blob that lists the ranges of an iterator's scopes. -/
def encodeIteratorScopes (scopes : List Span) : Except SymbolError (List UInt8) := do
  let size ← toUInt32 (recordHeadSize + 4 + 8 * scopes.length)
  let count ← toUInt32 scopes.length
  let ranges ← scopes.mapM rangeBytes
  return blobHead 1 ++ recordHead RecordKind.iteratorScopes.code size ++
    Bytes.Word.toBytes count ++ ranges.flatten

/-- The blob of a single record; none for a record that is not understood. -/
def encode? : Record → Option (Except SymbolError (List UInt8))
  | .iteratorClass name => some (encodeIteratorClass name)
  | .iteratorScopes scopes => some (encodeIteratorScopes scopes)
  | .unknown _ _ => none

end DebugSymbols.Metadata
