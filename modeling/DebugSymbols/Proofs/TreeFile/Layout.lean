import DebugSymbols.Proofs.Containment
import DebugSymbols.Proofs.Json.Records
import DebugSymbols.Proofs.Token
import DebugSymbols.SymbolTree

/-!
# Trees as JSON

How a tree is written as a tree file. The layout is a relation, as there is more than one way to
write a tree: members come in any order, what has its usual value may be left out, and a token is a
number or a text that spells it. A tree can be written if its variables have no attribute but that
of the compiler's own ones, its constants are no floating-point numbers, and a machine word can hold
the positions of its documents.
-/

namespace DebugSymbols

namespace ConstantValue

/-- The name of a value's type in a file. -/
def typeName : ConstantValue → String
  | null => "null"
  | boolean _ => "bool"
  | i1 _ => "i1"
  | u1 _ => "u1"
  | i2 _ => "i2"
  | u2 _ => "u2"
  | i4 _ => "i4"
  | u4 _ => "u4"
  | i8 _ => "i8"
  | u8 _ => "u8"
  | r4 _ => "r4"
  | r8 _ => "r8"
  | string _ => "string"

/-- The number that an integer of any width is. -/
def integer? : ConstantValue → Option Int
  | i1 value => some value.toInt
  | u1 value => some value.toNat
  | i2 value => some value.toInt
  | u2 value => some value.toNat
  | i4 value => some value.toInt
  | u4 value => some value.toNat
  | i8 value => some value.toInt
  | u8 value => some value.toNat
  | _ => none

/-- Whether a value is a floating-point word. -/
def isFloat : ConstantValue → Bool
  | r4 _ | r8 _ => true
  | _ => false

/-- A value as JSON. Floating-point words have no such form. -/
def node? : ConstantValue → Option Json.Node
  | null => some .null
  | boolean value => some (.boolean value)
  | string value => some (.string (.ok value))
  | value => value.integer?.map fun n => .number (.ofInt n)

theorem exists_node? {value : ConstantValue} (h : value.isFloat = false) :
    ∃ node, value.node? = some node := by
  cases value
  case r4 => cases h
  case r8 => cases h
  all_goals exact ⟨_, rfl⟩

end ConstantValue

/-- The constants of a method: those of its scopes, from the outside in, and then its own. -/
def Method.allConstants (method : Method) : List Constant :=
  method.scope.all.flatMap (·.constants) ++ method.constants

/-- The constants of a tree. -/
def SymbolTree.allConstants (tree : SymbolTree) : List Constant :=
  tree.methods.flatMap Method.allConstants

/-- A variable that can be written: the only attribute it may have is that of the compiler's own
variables. -/
def Variable.IsExpressible (variable_ : Variable) : Prop :=
  variable_.attributes = 0 ∨ variable_.attributes = Variable.compilerGenerated

/-- A tree that can be written. -/
structure SymbolTree.IsExpressible (tree : SymbolTree) : Prop where
  locals : ∀ method ∈ tree.methods, ∀ scope ∈ method.scope.all, ∀ variable_ ∈ scope.locals,
    variable_.IsExpressible
  constants : ∀ constant ∈ tree.allConstants, constant.value.isFloat = false
  /-- The position of a document is a machine word. -/
  positions : ∀ method ∈ tree.methods, ∀ group ∈ method.lines,
    group.document.index < UInt64.size

namespace TreeFile

open Json (IsList IsObject Node NullablePart Part)

/-! ## Scalars -/

/-- A number is a number. -/
def IsNumber (n : Nat) (node : Node) : Prop := node = .number (.ofInt n)

/-- A text is a string. -/
def IsText (text : String) (node : Node) : Prop := node = .string (.ok text)

/-- A truth value is one. -/
def IsBoolean (value : Bool) (node : Node) : Prop := node = .boolean value

/-- A GUID is a string of digits and hyphens. -/
def IsGuid (guid : Guid) (node : Node) : Prop := IsText guid.text node

/-- A token is a number, or a string with a decimal or hexadecimal number. -/
inductive IsToken (token : Token) : Node → Prop
  | number : IsToken token (.number (.ofInt token.value.toNat))
  | text {text : String} (h : token.IsSpelling text) : IsToken token (.string (.ok text))

/-- A token in decimal digits. -/
theorem IsToken.decimal (token : Token) :
    IsToken token (.string (.ok (String.ofList (Nat.toDigits 10 token.value.toNat)))) :=
  .text token.isSpelling_toDigits

/-- A token in hexadecimal digits. -/
theorem IsToken.hexadecimal (token : Token) : IsToken token (.string (.ok token.text)) :=
  .text token.isSpelling_text

/-! ## Records -/

/-- A document; identifiers of a C# source file may be left out. -/
def IsDocument (document : Document) (node : Node) : Prop :=
  ∃ path language vendor kind,
    Part "path" (IsText document.path) False path ∧
    NullablePart "language" (IsGuid document.language)
      (document.language = Document.csharpLanguage) language ∧
    NullablePart "vendor" (IsGuid document.vendor)
      (document.vendor = Document.microsoftVendor) vendor ∧
    NullablePart "documentType" (IsGuid document.kind)
      (document.kind = Document.textKind) kind ∧
    IsObject [path, language, vendor, kind] node

/-- A sequence point is an array of its five numbers. -/
def IsPoint (point : SequencePoint) (node : Node) : Prop :=
  node = .array [.number (.ofInt point.offset.toNat), .number (.ofInt point.startLine.toNat),
    .number (.ofInt point.startColumn.toNat), .number (.ofInt point.endLine.toNat),
    .number (.ofInt point.endColumn.toNat)] none

/-- A line group. The position of its document is a machine word. -/
def IsLines (group : LineGroup) (node : Node) : Prop :=
  group.document.index < UInt64.size ∧
    ∃ document points,
      Part "document" (IsNumber group.document.index) False document ∧
      Part "points" (IsList IsPoint group.points) False points ∧
      IsObject [document, points] node

/-- A variable; it says so if the compiler made it up. -/
def IsVariable (variable_ : Variable) (node : Node) : Prop :=
  ∃ generated name slot compilerGenerated,
    variable_.attributes = (if generated then Variable.compilerGenerated else 0) ∧
    Part "name" (IsText variable_.name) False name ∧
    Part "slot" (IsNumber variable_.slot.toNat) False slot ∧
    Part "compilerGenerated" (IsBoolean generated) (generated = false) compilerGenerated ∧
    IsObject [name, slot, compilerGenerated] node

/-- A constant; the null token may be left out. -/
def IsConstant (constant : Constant) (node : Node) : Prop :=
  ∃ name kind value token,
    Part "name" (IsText constant.name) False name ∧
    Part "type" (IsText constant.value.typeName) False kind ∧
    Part "value" (fun node => constant.value.node? = some node) False value ∧
    NullablePart "token" (IsToken constant.token) (constant.token = Token.null) token ∧
    IsObject [name, kind, value, token] node

/-- A scope, given how the scopes within are written. -/
def IsScopeWith (IsChildren : Node → Prop) (scope : Scope) (node : Node) : Prop :=
  ∃ offset length locals constants children,
    Part "offset" (IsNumber scope.span.offset.toNat) False offset ∧
    Part "length" (IsNumber scope.span.length.toNat) False length ∧
    Part "variables" (IsList IsVariable scope.locals) (scope.locals = []) locals ∧
    Part "constants" (IsList IsConstant scope.constants) (scope.constants = []) constants ∧
    Part "scopes" IsChildren (scope.children = []) children ∧
    IsObject [offset, length, locals, constants, children] node

mutual

/-- A scope with the scopes within. -/
def IsScope : Scope → Node → Prop
  | ⟨span, locals, constants, children⟩ =>
    IsScopeWith (fun node => ∃ items, AreScopes children items ∧ node = .array items none)
      ⟨span, locals, constants, children⟩

/-- Scopes one by one. -/
def AreScopes : List Scope → List Node → Prop
  | [], items => items = []
  | scope :: rest, items =>
    ∃ node others, IsScope scope node ∧ AreScopes rest others ∧ items = node :: others

end

theorem areScopes_iff {scopes : List Scope} {items : List Node} :
    AreScopes scopes items ↔ List.Forall₂ IsScope scopes items := by
  induction scopes generalizing items with
  | nil => rw [AreScopes, List.forall₂_nil_left_iff]
  | cons scope scopes ih => simp only [AreScopes, ih, List.forall₂_cons_left_iff]

/-- The scopes within a scope are a list of scopes. -/
theorem isScope_iff {scope : Scope} {node : Node} :
    IsScope scope node ↔ IsScopeWith (IsList IsScope scope.children) scope node := by
  obtain ⟨span, locals, constants, children⟩ := scope
  simp only [IsScope, areScopes_iff]
  rfl

/-- An iterator scope is an array of its two numbers. -/
def IsSpan (span : Span) (node : Node) : Prop :=
  node = .array [.number (.ofInt span.offset.toNat), .number (.ofInt span.length.toNat)] none

/-- A method; what is empty or null may be left out. -/
def IsMethod (method : Method) (node : Node) : Prop :=
  ∃ token slotToken lines scope constants iteratorClass iteratorScopes,
    Part "token" (IsToken method.token) False token ∧
    NullablePart "slotToken" (IsToken method.slotToken) (method.slotToken = Token.null)
      slotToken ∧
    Part "lines" (IsList IsLines method.lines) (method.lines = []) lines ∧
    Part "scope" (IsScope method.scope) False scope ∧
    Part "constants" (IsList IsConstant method.constants) (method.constants = []) constants ∧
    Part "iteratorClass" (IsText method.iteratorClass) (method.iteratorClass = "")
      iteratorClass ∧
    Part "iteratorScopes" (IsList IsSpan method.iteratorScopes) (method.iteratorScopes = [])
      iteratorScopes ∧
    IsObject [token, slotToken, lines, scope, constants, iteratorClass, iteratorScopes] node

/-- A member with a name, and with a type that declares it or without one. -/
def IsName (member : Member) (node : Node) : Prop :=
  ∃ declaringType name,
    NullablePart "type" (fun node => ∃ type, member.declaringType = some type ∧ IsText type node)
      (member.declaringType = none) declaringType ∧
    Part "name" (IsText member.name) False name ∧
    IsObject [declaringType, name] node

/-- Names of members under texts that spell tokens. -/
def IsNames (node : Node) : Prop :=
  ∃ members, node = .object members none ∧
    ∀ entry ∈ members, ∃ token text member, entry.1 = .ok text ∧
      Token.IsSpelling token text ∧ IsName member entry.2

/-- A tree, with any names beside it. -/
def IsTree (tree : SymbolTree) (node : Node) : Prop :=
  ∃ documents methods entryPoint names,
    Part "documents" (IsList IsDocument tree.documents) (tree.documents = []) documents ∧
    Part "functions" (IsList IsMethod tree.methods) (tree.methods = []) methods ∧
    NullablePart "entryPoint"
      (fun node => ∃ token, tree.entryPoint = some token ∧ IsToken token node)
      (tree.entryPoint = none) entryPoint ∧
    Part "names" IsNames True names ∧
    IsObject [documents, methods, entryPoint, names] node

/-! ## Every tree that can be written has a form -/

theorem exists_isDocument (document : Document) : ∃ node, IsDocument document node := by
  obtain ⟨node, hnode⟩ := IsObject.exists_node _
  exact ⟨node, _, _, _, _, .written rfl, .written (Or.inl rfl), .written (Or.inl rfl),
    .written (Or.inl rfl), hnode⟩

theorem exists_isLines {group : LineGroup} (h : group.document.index < UInt64.size) :
    ∃ node, IsLines group node := by
  have hpoints : ∃ node, IsList IsPoint group.points node :=
    IsList.exists_node fun _ _ => ⟨_, rfl⟩
  obtain ⟨points, hpoints⟩ := hpoints
  obtain ⟨node, hnode⟩ := IsObject.exists_node _
  exact ⟨node, h, _, _, .written rfl, .written hpoints, hnode⟩

theorem exists_isVariable {variable_ : Variable} (h : variable_.IsExpressible) :
    ∃ node, IsVariable variable_ node := by
  have hgenerated : ∃ generated : Bool,
      variable_.attributes = if generated then Variable.compilerGenerated else 0 := by
    rcases h with h | h
    · exact ⟨false, h⟩
    · exact ⟨true, h⟩
  obtain ⟨generated, hattributes⟩ := hgenerated
  obtain ⟨node, hnode⟩ := IsObject.exists_node _
  exact ⟨node, generated, _, _, _, hattributes, .written rfl, .written rfl, .written rfl, hnode⟩

theorem exists_isConstant {constant : Constant} (h : constant.value.isFloat = false) :
    ∃ node, IsConstant constant node := by
  obtain ⟨value, hvalue⟩ := ConstantValue.exists_node? h
  obtain ⟨node, hnode⟩ := IsObject.exists_node _
  exact ⟨node, _, _, _, _, .written rfl, .written rfl, .written hvalue,
    .written (Or.inl .number), hnode⟩

theorem exists_isScope (scope : Scope)
    (hlocals : ∀ inner ∈ scope.all, ∀ variable_ ∈ inner.locals, variable_.IsExpressible)
    (hconstants : ∀ inner ∈ scope.all, ∀ constant ∈ inner.constants,
      constant.value.isFloat = false) : ∃ node, IsScope scope node := by
  induction scope using Scope.induction_children with
  | step scope ih =>
    have hchildren : ∀ child ∈ scope.children, ∃ node, IsScope child node := by
      intro child hchild
      have hall : ∀ inner ∈ child.all, inner ∈ scope.all := fun inner hinner =>
        Scope.mem_all_iff.2 (Or.inr ⟨child, hchild, hinner⟩)
      exact ih child hchild (fun inner hinner => hlocals inner (hall inner hinner))
        fun inner hinner => hconstants inner (hall inner hinner)
    obtain ⟨locals, hlocals⟩ := IsList.exists_node fun variable_ hmem =>
      exists_isVariable (hlocals scope (Scope.mem_all_self scope) variable_ hmem)
    obtain ⟨constants, hconstants⟩ := IsList.exists_node fun constant hmem =>
      exists_isConstant (hconstants scope (Scope.mem_all_self scope) constant hmem)
    obtain ⟨children, hchildren⟩ := IsList.exists_node hchildren
    obtain ⟨node, hnode⟩ := IsObject.exists_node _
    exact ⟨node, isScope_iff.2 ⟨_, _, _, _, _, .written rfl, .written rfl, .written hlocals,
      .written hconstants, .written hchildren, hnode⟩⟩

theorem exists_isMethod {method : Method}
    (hlocals : ∀ scope ∈ method.scope.all, ∀ variable_ ∈ scope.locals, variable_.IsExpressible)
    (hconstants : ∀ constant ∈ method.allConstants, constant.value.isFloat = false)
    (hpositions : ∀ group ∈ method.lines, group.document.index < UInt64.size) :
    ∃ node, IsMethod method node := by
  simp only [Method.allConstants, List.mem_append, List.mem_flatMap] at hconstants
  obtain ⟨lines, hlines⟩ := IsList.exists_node fun group hmem =>
    exists_isLines (hpositions group hmem)
  obtain ⟨scope, hscope⟩ := exists_isScope method.scope hlocals
    fun inner hinner constant hmem => hconstants constant (Or.inl ⟨inner, hinner, hmem⟩)
  obtain ⟨constants, hconstants⟩ := IsList.exists_node fun constant hmem =>
    exists_isConstant (hconstants constant (Or.inr hmem))
  have hspans : ∃ node, IsList IsSpan method.iteratorScopes node :=
    IsList.exists_node fun _ _ => ⟨_, rfl⟩
  obtain ⟨spans, hspans⟩ := hspans
  obtain ⟨node, hnode⟩ := IsObject.exists_node _
  exact ⟨node, _, _, _, _, _, _, _, .written .number, .written (Or.inl .number), .written hlines,
    .written hscope, .written hconstants, .written rfl, .written hspans, hnode⟩

/-- A tree that can be written has a form. -/
theorem exists_isTree {tree : SymbolTree} (h : tree.IsExpressible) : ∃ node, IsTree tree node := by
  have hdocuments : ∃ node, IsList IsDocument tree.documents node :=
    IsList.exists_node fun document _ => exists_isDocument document
  obtain ⟨documents, hdocuments⟩ := hdocuments
  obtain ⟨methods, hmethods⟩ := IsList.exists_node fun method hmem =>
    exists_isMethod (h.locals method hmem)
      (fun constant hconstant =>
        h.constants constant (List.mem_flatMap.2 ⟨method, hmem, hconstant⟩))
      (h.positions method hmem)
  have hentry : ∃ part, NullablePart "entryPoint"
      (fun node => ∃ token, tree.entryPoint = some token ∧ IsToken token node)
      (tree.entryPoint = none) part := by
    cases tree.entryPoint with
    | none => exact ⟨_, .omitted rfl⟩
    | some token => exact ⟨_, .written (Or.inl ⟨token, rfl, .number⟩)⟩
  obtain ⟨entryPoint, hentry⟩ := hentry
  obtain ⟨node, hnode⟩ := IsObject.exists_node _
  exact ⟨node, _, _, entryPoint, _, .written hdocuments, .written hmethods, hentry,
    .omitted trivial, hnode⟩

end TreeFile

end DebugSymbols
