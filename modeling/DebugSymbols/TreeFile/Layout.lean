import DebugSymbols.Dictionary
import DebugSymbols.Json.Decode
import DebugSymbols.Json.Value
import DebugSymbols.Method
import DebugSymbols.Names

/-!
# The layout of a tree file

A tree file is a JSON object with documents, functions, an entry point, and names of members. This
module reads it as far as its layout goes. What a constant is depends on two of its fields, so
constants are kept as they stand in the file; so are scopes and methods, which hold constants.

A token is a number, or a text in decimal or hexadecimal.
-/

namespace DebugSymbols.TreeFile

open Json (Decoder Field Fault RecordKind ContentFault reject require)

/-! ## Entries of the file -/

/-- A constant as it stands in the file. -/
structure ConstantEntry where
  name : String
  /-- The name of the type of its value. -/
  kind : String
  value : Json.Value
  token : Option Token
deriving Inhabited

/-- A scope as it stands in the file. -/
structure ScopeEntry where
  span : Span
  locals : List Variable
  constants : List ConstantEntry
  scopes : List ScopeEntry
deriving Inhabited

/-- A method as it stands in the file. -/
structure MethodEntry where
  token : Token
  slotToken : Option Token
  lines : List LineGroup
  scope : ScopeEntry
  constants : List ConstantEntry
  iteratorClass : String
  iteratorScopes : List Span
deriving Inhabited

/-- A tree file. Names stand under the text of their token. -/
structure TreeEntry where
  documents : List Document
  methods : List MethodEntry
  entryPoint : Option Token
  names : List (String × Member)
deriving Inhabited

/-! ## Scalars -/

/-- Reads a token. The value is read whatever its type is, and then has to be one of the two
forms. -/
def token : Decoder Token := fun levels node => do
  match ← Json.Value.ofNode levels node with
  | .number (.integer value) =>
    if 0 ≤ value ∧ value < UInt32.size then .ok ⟨UInt32.ofNat value.toNat⟩ else reject .noToken
  | .string text =>
    match Token.parse? text with
    | some token => .ok token
    | none => reject (.badToken text)
  | _ => reject .noToken

/-- Reads a GUID. -/
def guid : Decoder Guid := fun levels node => do
  let text ← Decoder.string levels node
  match Guid.parse? text with
  | some guid => .ok guid
  | none => reject (.badGuid text)

/-! ## Documents -/

/-- The draft of a document. -/
structure DocumentDraft where
  path : Option String
  language : Option (Option Guid)
  vendor : Option (Option Guid)
  kind : Option (Option Guid)

/-- Documents; identifiers that are left out are those of a C# source file. -/
def documentKind : RecordKind DocumentDraft Document :=
  .named "DocumentDto"
    [.of "path" (·.path) (fun draft path => { draft with path := some path }) .string false,
      .of "language" (·.language) (fun draft language => { draft with language := some language })
        (.nullable guid) false,
      .of "vendor" (·.vendor) (fun draft vendor => { draft with vendor := some vendor })
        (.nullable guid) false,
      .of "documentType" (·.kind) (fun draft kind => { draft with kind := some kind })
        (.nullable guid) false]
    ⟨none, none, none, none⟩
    fun draft => do
      let plain := Document.csharp (← require "path" draft.path)
      return ⟨plain.path, draft.language.join.getD plain.language,
        draft.vendor.join.getD plain.vendor, draft.kind.join.getD plain.kind⟩

/-! ## Line groups -/

/-- The draft of a sequence point. -/
structure PointDraft where
  offset : Option UInt32
  startLine : Option UInt32
  startColumn : Option UInt16
  endLine : Option UInt32
  endColumn : Option UInt16

/-- Sequence points: five numbers. -/
def pointKind : RecordKind PointDraft SequencePoint :=
  .tuple
    [.of "0" (·.offset) (fun draft n => { draft with offset := some n }) .uint32 false,
      .of "1" (·.startLine) (fun draft n => { draft with startLine := some n }) .uint32 false,
      .of "2" (·.startColumn) (fun draft n => { draft with startColumn := some n }) .uint16 false,
      .of "3" (·.endLine) (fun draft n => { draft with endLine := some n }) .uint32 false,
      .of "4" (·.endColumn) (fun draft n => { draft with endColumn := some n }) .uint16 false]
    ⟨none, none, none, none, none⟩
    fun draft => do
      return ⟨← require "0" draft.offset, ← require "1" draft.startLine,
        ← require "2" draft.startColumn, ← require "3" draft.endLine,
        ← require "4" draft.endColumn⟩

/-- The draft of a line group. -/
structure LinesDraft where
  document : Option Nat
  points : Option (List SequencePoint)

/-- Line groups. -/
def linesKind : RecordKind LinesDraft LineGroup :=
  .named "LinesDto"
    [.of "document" (·.document) (fun draft id => { draft with document := some id })
        .position false,
      .of "points" (·.points) (fun draft points => { draft with points := some points })
        (.list pointKind.tupleDecoder) false]
    ⟨none, none⟩
    fun draft => do
      return ⟨⟨← require "document" draft.document⟩, ← require "points" draft.points⟩

/-! ## Variables and constants -/

/-- The draft of a variable. -/
structure VariableDraft where
  name : Option String
  slot : Option UInt32
  compilerGenerated : Option Bool

/-- Variables; one that the compiler made up has its attribute bit set. -/
def variableKind : RecordKind VariableDraft Variable :=
  .named "VariableDto"
    [.of "name" (·.name) (fun draft name => { draft with name := some name }) .string false,
      .of "slot" (·.slot) (fun draft slot => { draft with slot := some slot }) .uint32 false,
      .of "compilerGenerated" (·.compilerGenerated)
        (fun draft generated => { draft with compilerGenerated := some generated })
        .boolean true]
    ⟨none, none, none⟩
    fun draft => do
      let attributes :=
        if draft.compilerGenerated.getD false then Variable.compilerGenerated else 0
      return ⟨← require "name" draft.name, ← require "slot" draft.slot, attributes⟩

/-- The draft of a constant. -/
structure ConstantDraft where
  name : Option String
  kind : Option String
  value : Option Json.Value
  token : Option (Option Token)

/-- Constants. -/
def constantKind : RecordKind ConstantDraft ConstantEntry :=
  .named "ConstantDto"
    [.of "name" (·.name) (fun draft name => { draft with name := some name }) .string false,
      .of "type" (·.kind) (fun draft kind => { draft with kind := some kind }) .string false,
      .of "value" (·.value) (fun draft value => { draft with value := some value })
        Json.Value.ofNode false,
      .of "token" (·.token) (fun draft token => { draft with token := some token })
        (.nullable token) true]
    ⟨none, none, none, none⟩
    fun draft => do
      return ⟨← require "name" draft.name, ← require "type" draft.kind,
        ← require "value" draft.value, draft.token.join⟩

/-! ## Scopes -/

/-- The draft of a scope. -/
structure ScopeDraft where
  offset : Option UInt32
  length : Option UInt32
  locals : Option (List Variable)
  constants : Option (List ConstantEntry)
  scopes : Option (List ScopeEntry)

/-- Scopes, given how the scopes within are read. -/
def scopeKind (inner : Decoder ScopeEntry) : RecordKind ScopeDraft ScopeEntry :=
  .named "ScopeDto"
    [.of "offset" (·.offset) (fun draft n => { draft with offset := some n }) .uint32 false,
      .of "length" (·.length) (fun draft n => { draft with length := some n }) .uint32 false,
      .of "variables" (·.locals) (fun draft list => { draft with locals := some list })
        (.list variableKind.decoder) true,
      .of "constants" (·.constants) (fun draft list => { draft with constants := some list })
        (.list constantKind.decoder) true,
      .of "scopes" (·.scopes) (fun draft list => { draft with scopes := some list })
        (.list inner) true]
    ⟨none, none, none, none, none⟩
    fun draft => do
      return ⟨⟨← require "offset" draft.offset, ← require "length" draft.length⟩,
        draft.locals.getD [], draft.constants.getD [], draft.scopes.getD []⟩

/-- Reads scopes nested less than `depth` deep. -/
def scopeWithin : (depth : Nat) → Decoder ScopeEntry
  | 0 => fun _ _ => .error .illFormed
  | depth + 1 => (scopeKind (scopeWithin depth)).decoder

/-- Reads a scope. Each scope within another takes two levels, so the levels are used up first. -/
def scope : Decoder ScopeEntry := fun levels => scopeWithin (levels + 1) levels

/-! ## Methods -/

/-- The draft of an iterator scope. -/
structure SpanDraft where
  offset : Option UInt32
  length : Option UInt32

/-- Iterator scopes: two numbers. -/
def spanKind : RecordKind SpanDraft Span :=
  .tuple
    [.of "0" (·.offset) (fun draft n => { draft with offset := some n }) .uint32 false,
      .of "1" (·.length) (fun draft n => { draft with length := some n }) .uint32 false]
    ⟨none, none⟩
    fun draft => do
      return ⟨← require "0" draft.offset, ← require "1" draft.length⟩

/-- The draft of a method. -/
structure MethodDraft where
  token : Option Token
  slotToken : Option (Option Token)
  lines : Option (List LineGroup)
  scope : Option ScopeEntry
  constants : Option (List ConstantEntry)
  iteratorClass : Option String
  iteratorScopes : Option (List Span)

/-- Methods. -/
def methodKind : RecordKind MethodDraft MethodEntry :=
  .named "FunctionDto"
    [.of "token" (·.token) (fun draft token => { draft with token := some token }) token false,
      .of "slotToken" (·.slotToken) (fun draft token => { draft with slotToken := some token })
        (.nullable token) true,
      .of "lines" (·.lines) (fun draft lines => { draft with lines := some lines })
        (.list linesKind.decoder) true,
      .of "scope" (·.scope) (fun draft scope => { draft with scope := some scope }) scope false,
      .of "constants" (·.constants) (fun draft list => { draft with constants := some list })
        (.list constantKind.decoder) true,
      .of "iteratorClass" (·.iteratorClass)
        (fun draft name => { draft with iteratorClass := some name }) .string true,
      .of "iteratorScopes" (·.iteratorScopes)
        (fun draft scopes => { draft with iteratorScopes := some scopes })
        (.list spanKind.tupleDecoder) true]
    ⟨none, none, none, none, none, none, none⟩
    fun draft => do
      return {
        token := ← require "token" draft.token
        slotToken := draft.slotToken.join
        lines := draft.lines.getD []
        scope := ← require "scope" draft.scope
        constants := draft.constants.getD []
        iteratorClass := draft.iteratorClass.getD ""
        iteratorScopes := draft.iteratorScopes.getD [] }

/-! ## The tree -/

/-- The draft of a name. -/
structure NameDraft where
  declaringType : Option (Option String)
  name : Option String

/-- Names of members. -/
def nameKind : RecordKind NameDraft Member :=
  .named "NameDto"
    [.of "type" (·.declaringType) (fun draft type => { draft with declaringType := some type })
        (.nullable .string) false,
      .of "name" (·.name) (fun draft name => { draft with name := some name }) .string false]
    ⟨none, none⟩
    fun draft => do
      return ⟨draft.declaringType.join, ← require "name" draft.name⟩

/-- The draft of a tree. -/
structure TreeDraft where
  documents : Option (List Document)
  methods : Option (List MethodEntry)
  entryPoint : Option (Option Token)
  names : Option (List (String × Member))

/-- Trees. -/
def treeKind : RecordKind TreeDraft TreeEntry :=
  .named "TreeDto"
    [.of "documents" (·.documents) (fun draft list => { draft with documents := some list })
        (.list documentKind.decoder) true,
      .of "functions" (·.methods) (fun draft list => { draft with methods := some list })
        (.list methodKind.decoder) true,
      .of "entryPoint" (·.entryPoint) (fun draft token => { draft with entryPoint := some token })
        (.nullable token) true,
      .of "names" (·.names) (fun draft names => { draft with names := some names })
        (.entries nameKind.decoder) true]
    ⟨none, none, none, none⟩
    fun draft =>
      .ok ⟨draft.documents.getD [], draft.methods.getD [], draft.entryPoint.join,
        draft.names.getD []⟩

end DebugSymbols.TreeFile
