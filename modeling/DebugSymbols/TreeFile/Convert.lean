import DebugSymbols.SymbolTree
import DebugSymbols.TreeFile.Layout

/-!
# From tree files to trees

What a tree file holds becomes a tree after the whole file has been read. Constants get the value
that their type asks for, and a value that does not fit is refused. Names get the token that their
key spells.
-/

namespace DebugSymbols.TreeFile

/-- Why a value is no constant of its type. -/
inductive ValueFault
  | notBoolean
  | outOfRange (value : Json.Value)
  | notUnsigned
  | notNumber
  | notString
  | unknownType (name : String)

/-- The wording of a fault in a constant's value. -/
def ValueFault.message : ValueFault → String
  | notBoolean => "expected a boolean"
  | outOfRange value => s!"{value.compact} is out of range"
  | notUnsigned => "expected an unsigned integer"
  | notNumber => "expected a number"
  | notString => "expected a string"
  | unknownType name => s!"unknown constant type '{name}'"

/-- Why a file is no tree. -/
inductive FileFault
  | json (fault : Json.Fault)
  | constant (method : Token) (name : String) (fault : ValueFault)
  /-- A key among the names that spells no token. -/
  | nameToken (text : String)

/-- The integer of a value if it lies between the bounds, both included. -/
def integerWithin (low high : Int) (value : Json.Value) : Except ValueFault Int :=
  match value.asInt64? with
  | some n => if low ≤ n ∧ n ≤ high then .ok n else .error (.outOfRange value)
  | none => .error (.outOfRange value)

/-- The floating-point word of a value. -/
def floatOf (value : Json.Value) : Except ValueFault UInt64 :=
  match value.asFloat? with
  | some word => .ok word
  | none => .error .notNumber

/-- The value of a constant from the name of its type and the value in the file. -/
def constantValue (kind : String) (value : Json.Value) : Except ValueFault ConstantValue :=
  match kind with
  | "null" => .ok .null
  | "bool" =>
    match value with
    | .boolean b => .ok (.boolean b)
    | _ => .error .notBoolean
  | "i1" =>
    (integerWithin Int8.minValue.toInt Int8.maxValue.toInt value).map fun n => .i1 (Int8.ofInt n)
  | "u1" =>
    (integerWithin 0 (UInt8.size - 1) value).map fun n => .u1 (UInt8.ofNat n.toNat)
  | "i2" =>
    (integerWithin Int16.minValue.toInt Int16.maxValue.toInt value).map fun n => .i2 (Int16.ofInt n)
  | "u2" =>
    (integerWithin 0 (UInt16.size - 1) value).map fun n => .u2 (UInt16.ofNat n.toNat)
  | "i4" =>
    (integerWithin Int32.minValue.toInt Int32.maxValue.toInt value).map fun n => .i4 (Int32.ofInt n)
  | "u4" =>
    (integerWithin 0 (UInt32.size - 1) value).map fun n => .u4 (UInt32.ofNat n.toNat)
  | "i8" =>
    (integerWithin Int64.minValue.toInt Int64.maxValue.toInt value).map fun n => .i8 (Int64.ofInt n)
  | "u8" =>
    match value.asUInt64? with
    | some n => .ok (.u8 n)
    | none => .error .notUnsigned
  | "r4" => (floatOf value).map fun word => .r4 (Decimal.narrow word)
  | "r8" => (floatOf value).map .r8
  | "string" =>
    match value with
    | .string text => .ok (.string text)
    | _ => .error .notString
  | _ => .error (.unknownType kind)

/-- The constant of an entry. Without a token it has none. -/
def ConstantEntry.toConstant (method : Token) (entry : ConstantEntry) :
    Except FileFault Constant :=
  match constantValue entry.kind entry.value with
  | .ok value => .ok ⟨entry.name, value, entry.token.getD Token.null⟩
  | .error fault => .error (.constant method entry.name fault)

mutual

/-- The scope of an entry: its own constants first, then the scopes within. -/
def ScopeEntry.toScope (method : Token) : ScopeEntry → Except FileFault Scope
  | ⟨span, locals, constants, scopes⟩ => do
    let constants ← constants.mapM (ConstantEntry.toConstant method)
    let children ← ScopeEntry.toScopes method scopes
    return ⟨span, locals, constants, children⟩

/-- The scopes of entries. -/
def ScopeEntry.toScopes (method : Token) : List ScopeEntry → Except FileFault (List Scope)
  | [] => .ok []
  | entry :: rest => do
    let scope ← entry.toScope method
    let scopes ← ScopeEntry.toScopes method rest
    return scope :: scopes

end

/-- The method of an entry: the constants of its scopes first, then its own. -/
def MethodEntry.toMethod (entry : MethodEntry) : Except FileFault Method := do
  let scope ← entry.scope.toScope entry.token
  let constants ← entry.constants.mapM (ConstantEntry.toConstant entry.token)
  return {
    token := entry.token
    slotToken := entry.slotToken.getD Token.null
    lines := entry.lines
    scope
    constants
    iteratorClass := entry.iteratorClass
    iteratorScopes := entry.iteratorScopes }

/-- The names of entries in the given order; of two keys for one token the later one wins. -/
def namesOf : List (String × Member) → Names → Except FileFault Names
  | [], names => .ok names
  | (text, member) :: rest, names =>
    match Token.parse? text with
    | some token => namesOf rest (names.insert token member)
    | none => .error (.nameToken text)

/-- A tree with the names that came with it. -/
structure NamedTree where
  tree : SymbolTree
  names : Names

/-- The tree of a file. Keys of names that are the same text are one entry, the last one. -/
def TreeEntry.toTree (entry : TreeEntry) : Except FileFault NamedTree := do
  let methods ← entry.methods.mapM MethodEntry.toMethod
  let names ← namesOf (Dictionary.ofList entry.names).entries .empty
  return ⟨⟨entry.documents, methods, entry.entryPoint⟩, names⟩

/-- How deep arrays and objects may be nested in a file. -/
def maxLevels : Nat := 127

/-- Reads a whole text with a decoder; nothing but blanks may follow the value. -/
def decodeText {α : Type} (decoder : Json.Decoder α) (text : String) : Except Json.Fault α := do
  let document := Json.Document.ofText text
  let value ← decoder maxLevels document.root
  if document.trailing then .error .illFormed else .ok value

/-- Reads the text of a tree file. -/
def parse (text : String) : Except FileFault NamedTree :=
  match decodeText treeKind.decoder text with
  | .ok entry => entry.toTree
  | .error fault => .error (.json fault)

end DebugSymbols.TreeFile
