import DebugSymbols.Span

/-!
# Custom metadata records

The compiler attaches a blob of custom metadata to an iterator method. A blob holds records; two
kinds of them are known here: the name of the class that implements the iterator, and the ranges of
the iterator's scopes. Records of other kinds are kept as they are.
-/

namespace DebugSymbols.Metadata

/-- The name of the symbol attribute that holds a blob. -/
def attributeName : String := "MD2"

/-- The version of blobs and records. -/
def version : UInt8 := 4

/-- The size of the head of a record: version, kind, padding and size field. -/
def recordHeadSize : Nat := 8

/-- The kinds of records that compilers write. -/
inductive RecordKind
  | usingInfo
  | forwardInfo
  | forwardToModuleInfo
  | iteratorScopes
  | forwardIterator
deriving DecidableEq, Repr

namespace RecordKind

/-- The number of a kind in the head of a record. -/
def code : RecordKind → UInt8
  | usingInfo => 0
  | forwardInfo => 1
  | forwardToModuleInfo => 2
  | iteratorScopes => 3
  | forwardIterator => 4

/-- The kind with a number. -/
def ofCode? (code : UInt8) : Option RecordKind :=
  if code = 0 then some usingInfo
  else if code = 1 then some forwardInfo
  else if code = 2 then some forwardToModuleInfo
  else if code = 3 then some iteratorScopes
  else if code = 4 then some forwardIterator
  else none

/-- The name of a kind. -/
def name : RecordKind → String
  | usingInfo => "UsingInfo"
  | forwardInfo => "ForwardInfo"
  | forwardToModuleInfo => "ForwardToModuleInfo"
  | iteratorScopes => "IteratorScopes"
  | forwardIterator => "ForwardIterator"

end RecordKind

/-- A record of a blob. -/
inductive Record
  /-- The class that implements the iterator. -/
  | iteratorClass (name : String)
  /-- The ranges of the iterator's scopes. -/
  | iteratorScopes (scopes : List Span)
  /-- A record of another kind with its payload. -/
  | unknown (kind : UInt8) (data : List UInt8)
deriving DecidableEq, Repr

namespace Record

/-- The number of a record's kind. -/
def kind : Record → UInt8
  | iteratorClass _ => RecordKind.forwardIterator.code
  | iteratorScopes _ => RecordKind.iteratorScopes.code
  | unknown kind _ => kind

/-- Whether the payload of a record is understood. -/
def isKnown : Record → Bool
  | unknown _ _ => false
  | _ => true

end Record

end DebugSymbols.Metadata
