import DebugSymbols.Document
import DebugSymbols.Span
import DebugSymbols.Text.Quoted
import DebugSymbols.Token

/-!
# Errors

Every failure of the library is a `SymbolError`, built from its cause. The wording of all causes
stands here; nothing else depends on it.
-/

namespace DebugSymbols

/-- The operations of a symbol sink. -/
inductive Operation
  /-- The creation of a sink, which writes the head of the store. -/
  | createStore
  | defineDocument
  | setUserEntryPoint
  | openMethod
  | closeMethod
  | openScope
  | closeScope
  | defineSequencePoints
  | defineLocalVariable
  | defineConstant
  | setSymbolAttribute
  | close
deriving DecidableEq, Repr

namespace Operation

/-- The name of an operation in messages. -/
def name : Operation → String
  | createStore => "open"
  | defineDocument => "define_document"
  | setUserEntryPoint => "set_user_entry_point"
  | openMethod => "open_method"
  | closeMethod => "close_method"
  | openScope => "open_scope"
  | closeScope => "close_scope"
  | defineSequencePoints => "define_sequence_points"
  | defineLocalVariable => "define_local_variable"
  | defineConstant => "define_constant"
  | setSymbolAttribute => "set_symbol_attribute"
  | close => "close"

/-- The operations that a caller of a sink can ask for. -/
def all : List Operation :=
  [defineDocument, setUserEntryPoint, openMethod, closeMethod, openScope, closeScope,
    defineSequencePoints, defineLocalVariable, defineConstant, setSymbolAttribute, close]

/-- The operation with a given name. -/
def ofName? (name : String) : Option Operation := all.find? fun operation => operation.name == name

end Operation

/-- The handle under which a sink knows a document. -/
structure DocumentHandle where
  index : Nat
deriving DecidableEq, Repr, Inhabited

/-- The text of a handle, as in `doc3`. -/
def DocumentHandle.text (handle : DocumentHandle) : String := s!"doc{handle.index}"

/-- Why a tree cannot be written. -/
inductive TreeFault
  /-- The end of a range exceeds 32 bits. -/
  | rangeOverflow (span : Span)
  /-- A size or count exceeds 32 bits. -/
  | sizeOverflow (value : Nat)
  /-- A scope reaches out of the scope around it. -/
  | scopeNotContained (method : Token) (child parent : Span)
  /-- An iterator class name holds a NUL character before its end. -/
  | nulInClassName (name : String)
deriving DecidableEq, Repr

/-- Why bytes are no metadata blob, although enough of them are there. -/
inductive BlobFault
  | version (found : UInt8)
  | recordVersion (found : UInt8)
  | headerPadding (position : Nat)
  | recordSize (size position : Nat)
  | oddClassName
  | unterminatedClassName
  | classNamePadding
  | excessClassNamePadding (count : Nat)
  | classNameEncoding
  | scopeCount (count payload : Nat)
  | invertedScope (start stop : UInt32)
  | trailingBytes (count records : Nat)
deriving DecidableEq, Repr

/-- Why a sink refused a call. -/
inductive Refusal
  | alreadyClosed
  /-- A failure that was asked for in advance. -/
  | injected
  | noMethodOpen
  | noScopeOpen
  | tooManyDocuments
  | methodStillOpen (method openMethod : Token)
  | scopesStillOpen (method : Token) (count : Nat)
  | rootScopeCount (method : Token) (count : Nat)
  | secondRootScope
  | scopeEndsBeforeStart (stop start : UInt32)
  | unknownHandle (handle : DocumentHandle)
  /-- The columns of a batch differ in length. -/
  | unevenColumns
  /-- The same, in the words of a sink that writes points instead of recording them. -/
  | unevenPoints
  | foreignAttribute (parent method : Token)
  | closedInsideMethod (method : Token)
  /-- An element is to be ended while another one is the innermost open one. -/
  | wrongElement (element innermost : String)
  | noElement (element : String)
  | elementsStillOpen (count : Nat)
  /-- The device below the sink failed, with its own words. -/
  | device (text : String)
deriving DecidableEq, Repr

/-- Any failure of the library. -/
inductive SymbolError
  | invalidTree (fault : TreeFault)
  /-- A line group names a document that is not there, or one without a path. -/
  | unknownDocument (method : Token) (document : DocumentId)
  | sinkFailure (operation : Operation) (refusal : Refusal)
  /-- Scopes are nested deeper than the limit. -/
  | recursionLimit (limit : Nat)
  | malformed (fault : BlobFault)
  /-- Bytes end before what they announce. -/
  | outOfBounds
  /-- A source has no tree, or has given it away before. -/
  | empty
deriving DecidableEq, Repr

/-- The wording of a fault in a tree. -/
def TreeFault.message : TreeFault → String
  | rangeOverflow span => s!"Range {span.text} overflows"
  | sizeOverflow value => s!"Serialization value {value} exceeds u32::MAX"
  | scopeNotContained method child parent =>
    s!"Scope [{child.text}] of method {method.text} is not contained in its parent [{parent.text}]"
  | nulInClassName name => s!"Iterator class name {Text.quoted name} contains a NUL character"

/-- The wording of a fault in a blob. -/
def BlobFault.message : BlobFault → String
  | version found => s!"Unsupported custom metadata version - {found.toNat}"
  | recordVersion found => s!"Unsupported custom metadata record version - {found.toNat}"
  | headerPadding position => s!"Non-zero header padding at offset {position}"
  | recordSize size position => s!"Invalid custom metadata record size {size} at offset {position}"
  | oddClassName => "Iterator class payload has odd length"
  | unterminatedClassName => "Iterator class name is not NUL terminated"
  | classNamePadding => "Non-zero padding after iterator class name"
  | excessClassNamePadding count => s!"Iterator class record has {count} bytes of padding"
  | classNameEncoding => "Iterator class name is not valid UTF-16"
  | scopeCount count payload =>
    s!"Iterator scope count {count} does not match payload of {payload} bytes"
  | invertedScope start stop =>
    s!"Iterator scope ends before it starts - [{start.toNat}, {stop.toNat})"
  | trailingBytes count records =>
    s!"{count} trailing bytes after {records} custom metadata records"

/-- The wording of a refusal. -/
def Refusal.message : Refusal → String
  | alreadyClosed => "sink is already closed"
  | injected => "injected failure"
  | noMethodOpen => "no method is open"
  | noScopeOpen => "no scope is open"
  | tooManyDocuments => "too many documents"
  | methodStillOpen method openMethod =>
    s!"method {method.text} opened while {openMethod.text} is still open"
  | scopesStillOpen method count => s!"method {method.text} closed with {count} open scopes"
  | rootScopeCount method count => s!"method {method.text} has {count} root scopes"
  | secondRootScope => "second root scope"
  | scopeEndsBeforeStart stop start =>
    s!"scope closed at {Text.hexOffset stop} before its start {Text.hexOffset start}"
  | unknownHandle handle => s!"unknown document handle {handle.text}"
  | unevenColumns => "parallel arrays differ in length"
  | unevenPoints => "sequence point arrays differ in length"
  | foreignAttribute parent method => s!"attribute for {parent.text} while {method.text} is open"
  | closedInsideMethod method => s!"method {method.text} is still open"
  | wrongElement element innermost =>
    s!"cannot close <{element}> while <{innermost}> is open"
  | noElement element => s!"no <{element}> is open"
  | elementsStillOpen count => s!"{count} elements still open"
  | device text => text

/-- The wording of an error. -/
def SymbolError.message : SymbolError → String
  | invalidTree fault => fault.message
  | unknownDocument method document =>
    s!"Method {method.text} references unknown document {document.text}"
  | sinkFailure operation refusal =>
    s!"Symbol sink rejected {operation.name}: {refusal.message}"
  | recursionLimit limit => s!"Reach the maximum recursion level allowed - {limit}"
  | malformed fault => fault.message
  | outOfBounds => "Out of Bound read would have occurred!"
  | empty => "Provided input was empty"

/-- The end of a range, or the fault that it has none. -/
def Span.stop (span : Span) : Except SymbolError UInt32 :=
  match span.stop? with
  | some stop => .ok stop
  | none => .error (.invalidTree (.rangeOverflow span))

/-- A size as a 32-bit number, or the fault that it is too large. -/
def toUInt32 (value : Nat) : Except SymbolError UInt32 :=
  if value < UInt32.size then .ok (UInt32.ofNat value)
  else .error (.invalidTree (.sizeOverflow value))

end DebugSymbols
