import DebugSymbols.Proofs.TreeFile.Constants
import DebugSymbols.Proofs.TreeFile.Names

/-!
# Trees are read from their JSON form

Every form of a tree is read as a file that becomes the tree. Each kind of record has one lemma: its
parts are found, in whatever order the members come, and the draft of what has been found becomes
the value again. Scopes are read by induction on the scopes within.
-/

namespace DebugSymbols.TreeFile

open Json (Decoder Field Finds IsList IsObject Node NullablePart Part RecordKind)
open Json.RecordKind (decoder_of_isObject fillItems_item fillMembers_part
  tupleDecoder_of_fillItems)

variable {node : Node} {levels : Nat} {key : String} {part : List Json.Member}

/-! ## Scalars -/

theorem IsText.read {text : String} (h : IsText text node) :
    Decoder.string levels node = .ok text := by
  rw [h]
  rfl

theorem IsBoolean.read {value : Bool} (h : IsBoolean value node) :
    Decoder.boolean levels node = .ok value := by
  rw [h]
  rfl

theorem IsNumber.read {n : UInt32} (h : IsNumber n.toNat node) :
    Decoder.uint32 levels node = .ok n := by
  rw [h]
  exact Decoder.uint32_ofInt n levels

theorem IsNumber.read_position {n : Nat} (hlt : n < UInt64.size) (h : IsNumber n node) :
    Decoder.position levels node = .ok n := by
  rw [h]
  exact Decoder.natural_ofInt (Nat.le_refl _) hlt

theorem IsGuid.read {guid : Guid} (h : IsGuid guid node) :
    TreeFile.guid levels node = .ok guid := by
  rw [TreeFile.guid, IsText.read h, ok_bind, Guid.parse?_text]

theorem IsToken.read {token : Token} (h : IsToken token node) :
    TreeFile.token levels node = .ok token := by
  cases h with
  | number =>
    have hlt := token.value.toNat_lt
    have hread := Json.Literal.read_ofInt_natCast (Nat.lt_trans hlt (by decide))
    rw [TreeFile.token, Json.Value.ofNode_number hread, ok_bind]
    dsimp only
    rw [if_pos ⟨Int.natCast_nonneg _, Int.ofNat_lt.2 hlt⟩, Int.toNat_natCast, UInt32.ofNat_toNat]
  | @text text h =>
    have hread : Json.Value.ofNode levels (.string (.ok text)) = .ok (.string text) := by
      rw [Json.Value.ofNode]
      rfl
    rw [TreeFile.token, hread, ok_bind]
    dsimp only
    rw [Token.parse?_of_isSpelling h]

theorem string_null_ne_ok (text : String) : Decoder.string levels .null ≠ .ok text := by
  intro h
  cases h

theorem guid_null_ne_ok (guid : Guid) : TreeFile.guid levels .null ≠ .ok guid := by
  intro h
  cases h

theorem token_null_ne_ok (token : Token) : TreeFile.token levels .null ≠ .ok token := by
  rw [TreeFile.token, Json.Value.ofNode]
  intro h
  cases h

/-- An identifier that is left out or `null` is the usual one. -/
theorem finds_guid {guid fallback : Guid}
    (h : NullablePart key (IsGuid guid) (guid = fallback) part)
    (hdepth : ∀ member ∈ part, member.2.depth ≤ levels) :
    ∃ found, Finds (Decoder.nullable TreeFile.guid) levels key part found ∧
      found.join.getD fallback = guid :=
  Part.finds_nullable (fun found => found.getD fallback = guid) h hdepth
    guid_null_ne_ok (fun _ h _ => ⟨guid, h.read, rfl⟩) Eq.symm

/-- A token that is left out or `null` is the null token. -/
theorem finds_token {token : Token}
    (h : NullablePart key (IsToken token) (token = Token.null) part)
    (hdepth : ∀ member ∈ part, member.2.depth ≤ levels) :
    ∃ found, Finds (Decoder.nullable TreeFile.token) levels key part found ∧
      found.join.getD Token.null = token :=
  Part.finds_nullable (fun found => found.getD Token.null = token) h hdepth
    token_null_ne_ok (fun _ h _ => ⟨token, h.read, rfl⟩) Eq.symm

/-! ## Documents -/

theorem documentKind_orderless : documentKind.Orderless where
  marks := by simp [documentKind, RecordKind.named, Field.marks_of]
  independent := by simp [documentKind, RecordKind.named, Field.independent_of]

theorem IsDocument.read {document : Document} (h : IsDocument document node)
    (hdepth : node.depth ≤ levels) : documentKind.decoder levels node = .ok document := by
  obtain ⟨path, language, vendor, kind, hpath, hlanguage, hvendor, hkind, hobject⟩ := h
  obtain ⟨inner, rfl, hinner, hread⟩ :=
    decoder_of_isObject documentKind_orderless hobject hdepth
  simp only [List.forall_mem_cons] at hinner
  -- here and below: each part fits the levels that are left (`d`), so it is found, and what is
  -- found, or is usual where nothing is found, is the value that was written (`e`)
  obtain ⟨dpath, dlanguage, dvendor, dkind, -⟩ := hinner
  have hpath := hpath.finds_required dpath fun _ h _ => IsText.read h
  obtain ⟨language?, hlanguage, elanguage⟩ := finds_guid hlanguage dlanguage
  obtain ⟨vendor?, hvendor, evendor⟩ := finds_guid hvendor dvendor
  obtain ⟨kind?, hkind, ekind⟩ := finds_guid hkind dkind
  refine hread ⟨some document.path, language?, vendor?, kind?⟩ document ?_ ?_
  · refine fillMembers_part (DocumentDraft.mk · none none none)
      rfl rfl (fun _ => rfl) hpath ?_
    refine fillMembers_part (DocumentDraft.mk _ · none none)
      rfl rfl (fun _ => rfl) hlanguage ?_
    refine fillMembers_part (DocumentDraft.mk _ _ · none)
      rfl rfl (fun _ => rfl) hvendor ?_
    refine fillMembers_part (DocumentDraft.mk _ _ _ ·)
      rfl rfl (fun _ => rfl) hkind ?_
    rfl
  · show Except.ok (Document.mk document.path (language?.join.getD Document.csharpLanguage)
      (vendor?.join.getD Document.microsoftVendor) (kind?.join.getD Document.textKind)) = _
    rw [elanguage, evendor, ekind]

/-! ## Lines -/

theorem IsPoint.read {point : SequencePoint} (h : IsPoint point node)
    (hdepth : node.depth ≤ levels) : pointKind.tupleDecoder levels node = .ok point := by
  rw [h] at hdepth ⊢
  obtain ⟨inner, rfl, -⟩ := Node.depth_array_le_iff.1 hdepth
  apply tupleDecoder_of_fillItems
  · apply fillItems_item (Decoder.uint32_ofInt point.offset inner)
    apply fillItems_item (Decoder.uint32_ofInt point.startLine inner)
    apply fillItems_item (Decoder.uint16_ofInt point.startColumn inner)
    apply fillItems_item (Decoder.uint32_ofInt point.endLine inner)
    apply fillItems_item (Decoder.uint16_ofInt point.endColumn inner)
    rfl
  · rfl

theorem linesKind_orderless : linesKind.Orderless where
  marks := by simp [linesKind, RecordKind.named, Field.marks_of]
  independent := by simp [linesKind, RecordKind.named, Field.independent_of]

theorem IsLines.read {group : LineGroup} (h : IsLines group node)
    (hdepth : node.depth ≤ levels) : linesKind.decoder levels node = .ok group := by
  obtain ⟨hindex, document, points, hdocument, hpoints, hobject⟩ := h
  obtain ⟨inner, rfl, hinner, hread⟩ :=
    decoder_of_isObject linesKind_orderless hobject hdepth
  simp only [List.forall_mem_cons] at hinner
  obtain ⟨ddocument, dpoints, -⟩ := hinner
  have hdocument := hdocument.finds_required ddocument fun _ h _ =>
    IsNumber.read_position hindex h
  have hpoints := hpoints.finds_required dpoints fun _ h hfits =>
    h.read hfits fun _ _ _ => IsPoint.read
  refine hread ⟨some group.document.index, some group.points⟩ group ?_ rfl
  refine fillMembers_part (LinesDraft.mk · none) rfl rfl (fun _ => rfl)
    hdocument ?_
  refine fillMembers_part (LinesDraft.mk _ ·) rfl rfl (fun _ => rfl) hpoints ?_
  rfl

/-! ## Variables and constants -/

theorem variableKind_orderless : variableKind.Orderless where
  marks := by simp [variableKind, RecordKind.named, Field.marks_of]
  independent := by simp [variableKind, RecordKind.named, Field.independent_of]

theorem IsVariable.read {variable_ : Variable} (h : IsVariable variable_ node)
    (hdepth : node.depth ≤ levels) : variableKind.decoder levels node = .ok variable_ := by
  obtain ⟨generated, name, slot, compilerGenerated, hattributes, hname, hslot, hgenerated,
    hobject⟩ := h
  obtain ⟨inner, rfl, hinner, hread⟩ := decoder_of_isObject variableKind_orderless hobject hdepth
  simp only [List.forall_mem_cons] at hinner
  obtain ⟨dname, dslot, dgenerated, -⟩ := hinner
  have hname := hname.finds_required dname fun _ h _ => IsText.read h
  have hslot := hslot.finds_required dslot fun _ h _ => IsNumber.read h
  obtain ⟨generated?, hgenerated, egenerated⟩ :=
    hgenerated.finds_defaulted dgenerated fun _ h _ => IsBoolean.read h
  refine hread ⟨some variable_.name, some variable_.slot, generated?⟩ variable_ ?_ ?_
  · refine fillMembers_part (VariableDraft.mk · none none) rfl rfl (fun _ => rfl) hname ?_
    refine fillMembers_part (VariableDraft.mk _ · none) rfl rfl (fun _ => rfl) hslot ?_
    refine fillMembers_part (VariableDraft.mk _ _ ·) rfl rfl (fun _ => rfl) hgenerated ?_
    rfl
  · show Except.ok (Variable.mk variable_.name variable_.slot
      (if generated?.getD false then Variable.compilerGenerated else 0)) = _
    rw [egenerated, ← hattributes]

/-- An entry that becomes a constant, in any method. -/
def ConstantEntry.Becomes (entry : ConstantEntry) (constant : Constant) : Prop :=
  ∀ method, entry.toConstant method = .ok constant

theorem mapM_toConstant {entries : List ConstantEntry} {constants : List Constant}
    (h : List.Forall₂ ConstantEntry.Becomes entries constants) (method : Token) :
    entries.mapM (ConstantEntry.toConstant method) = .ok constants :=
  Json.mapM_eq_ok_iff.2 (h.imp fun _ _ h => h method)

theorem finds_constantValue {value : ConstantValue}
    (h : Part key (fun node => value.node? = some node) False part) :
    ∃ json, Finds Json.Value.ofNode levels key part (some json) ∧
      constantValue value.typeName json = .ok value := by
  cases h with
  | written h =>
    obtain ⟨json, hjson, hvalue⟩ := exists_constantValue h levels
    exact ⟨json, .written hjson, hvalue⟩
  | omitted h => cases h

theorem constantKind_orderless : constantKind.Orderless where
  marks := by simp [constantKind, RecordKind.named, Field.marks_of]
  independent := by simp [constantKind, RecordKind.named, Field.independent_of]

theorem IsConstant.exists_read {constant : Constant} (h : IsConstant constant node)
    (hdepth : node.depth ≤ levels) :
    ∃ entry, constantKind.decoder levels node = .ok entry ∧ entry.Becomes constant := by
  obtain ⟨name, kind, value, token, hname, hkind, hvalue, htoken, hobject⟩ := h
  obtain ⟨inner, rfl, hinner, hread⟩ := decoder_of_isObject constantKind_orderless hobject hdepth
  simp only [List.forall_mem_cons] at hinner
  obtain ⟨dname, dkind, -, dtoken, -⟩ := hinner
  have hname := hname.finds_required dname fun _ h _ => IsText.read h
  have hkind := hkind.finds_required dkind fun _ h _ => IsText.read h
  obtain ⟨json, hvalue, hconstant⟩ := finds_constantValue hvalue
  obtain ⟨token?, htoken, etoken⟩ := finds_token htoken dtoken
  refine ⟨⟨constant.name, constant.value.typeName, json, token?.join⟩, ?_, ?_⟩
  · refine hread ⟨some constant.name, some constant.value.typeName, some json, token?⟩ _ ?_ rfl
    refine fillMembers_part (ConstantDraft.mk · none none none) rfl rfl (fun _ => rfl) hname ?_
    refine fillMembers_part (ConstantDraft.mk _ · none none) rfl rfl (fun _ => rfl) hkind ?_
    refine fillMembers_part (ConstantDraft.mk _ _ · none) rfl rfl (fun _ => rfl) hvalue ?_
    refine fillMembers_part (ConstantDraft.mk _ _ _ ·) rfl rfl (fun _ => rfl) htoken ?_
    rfl
  · intro method
    rw [ConstantEntry.toConstant, hconstant, etoken]

/-- Constants that are left out are none. -/
theorem finds_constants {constants : List Constant}
    (h : Part key (IsList IsConstant constants) (constants = []) part)
    (hdepth : ∀ member ∈ part, member.2.depth ≤ levels) :
    ∃ found, Finds (Decoder.list constantKind.decoder) levels key part found ∧
      List.Forall₂ ConstantEntry.Becomes (found.getD []) constants :=
  h.finds_list hdepth fun _ _ _ _ _ => IsConstant.exists_read

/-! ## Scopes -/

/-- An entry that becomes a scope, in any method. -/
def ScopeEntry.Becomes (entry : ScopeEntry) (scope : Scope) : Prop :=
  ∀ method, entry.toScope method = .ok scope

theorem toScopes_eq_mapM (method : Token) (entries : List ScopeEntry) :
    ScopeEntry.toScopes method entries = entries.mapM (ScopeEntry.toScope method) := by
  induction entries with
  | nil => rfl
  | cons entry entries ih => rw [ScopeEntry.toScopes, ih, List.mapM_cons]

theorem toScopes_of_becomes {entries : List ScopeEntry} {scopes : List Scope}
    (h : List.Forall₂ ScopeEntry.Becomes entries scopes) (method : Token) :
    ScopeEntry.toScopes method entries = .ok scopes := by
  rw [toScopes_eq_mapM]
  exact Json.mapM_eq_ok_iff.2 (h.imp fun _ _ h => h method)

theorem scopeKind_orderless (inner : Decoder ScopeEntry) : (scopeKind inner).Orderless where
  marks := by simp [scopeKind, RecordKind.named, Field.marks_of]
  independent := by simp [scopeKind, RecordKind.named, Field.independent_of]

/-- A scope is read if there are fewer levels left than scopes may be nested. -/
theorem IsScope.exists_read {scope : Scope} : ∀ {node : Node} {levels depth : Nat},
    IsScope scope node → node.depth ≤ levels → levels < depth →
      ∃ entry, scopeWithin depth levels node = .ok entry ∧ entry.Becomes scope := by
  induction scope using Scope.induction_children with
  | step scope ih =>
    intro node levels depth h hdepth hlt
    obtain ⟨limit, rfl⟩ := Nat.exists_eq_succ_of_ne_zero (Nat.ne_zero_of_lt hlt)
    obtain ⟨offset, length, locals, constants, children, hoffset, hlength, hlocals, hconstants,
      hchildren, hobject⟩ := isScope_iff.1 h
    obtain ⟨inner, rfl, hinner, hread⟩ :=
      decoder_of_isObject (scopeKind_orderless (scopeWithin limit)) hobject hdepth
    simp only [List.forall_mem_cons] at hinner
    obtain ⟨doffset, dlength, dlocals, dconstants, dchildren, -⟩ := hinner
    have hoffset := hoffset.finds_required doffset fun _ h _ => IsNumber.read h
    have hlength := hlength.finds_required dlength fun _ h _ => IsNumber.read h
    obtain ⟨locals?, hlocals, elocals⟩ := hlocals.finds_defaulted dlocals fun _ h hfits =>
      h.read hfits fun _ _ _ => IsVariable.read
    obtain ⟨constants?, hconstants, econstants⟩ := finds_constants hconstants dconstants
    -- two levels are gone for the scopes within, but only one of the limit
    have hchild : ∀ child ∈ scope.children, ∀ item level, level < inner → IsScope child item →
        item.depth ≤ level →
          ∃ entry, scopeWithin limit level item = .ok entry ∧ entry.Becomes child := by
      intro child hmem item level hlevel hitem hfits
      exact ih child hmem hitem hfits (by omega)
    obtain ⟨children?, hchildren, echildren⟩ := hchildren.finds_list dchildren hchild
    refine ⟨⟨scope.span, scope.locals, constants?.getD [], children?.getD []⟩, ?_, ?_⟩
    · refine hread ⟨some scope.span.offset, some scope.span.length, locals?, constants?,
        children?⟩ _ ?_ ?_
      · refine fillMembers_part (ScopeDraft.mk · none none none none) rfl rfl (fun _ => rfl)
          hoffset ?_
        refine fillMembers_part (ScopeDraft.mk _ · none none none) rfl rfl (fun _ => rfl)
          hlength ?_
        refine fillMembers_part (ScopeDraft.mk _ _ · none none) rfl rfl (fun _ => rfl) hlocals ?_
        refine fillMembers_part (ScopeDraft.mk _ _ _ · none) rfl rfl (fun _ => rfl)
          hconstants ?_
        refine fillMembers_part (ScopeDraft.mk _ _ _ _ ·) rfl rfl (fun _ => rfl) hchildren ?_
        rfl
      · show Except.ok (ScopeEntry.mk scope.span (locals?.getD []) (constants?.getD [])
          (children?.getD [])) = _
        rw [elocals]
    · intro method
      rw [ScopeEntry.toScope, mapM_toConstant econstants, ok_bind,
        toScopes_of_becomes echildren method]
      cases scope
      rfl

/-! ## Methods -/

theorem IsSpan.read {span : Span} (h : IsSpan span node) (hdepth : node.depth ≤ levels) :
    spanKind.tupleDecoder levels node = .ok span := by
  rw [h] at hdepth ⊢
  obtain ⟨inner, rfl, -⟩ := Node.depth_array_le_iff.1 hdepth
  apply tupleDecoder_of_fillItems
  · apply fillItems_item (Decoder.uint32_ofInt span.offset inner)
    apply fillItems_item (Decoder.uint32_ofInt span.length inner)
    rfl
  · rfl

theorem methodKind_orderless : methodKind.Orderless where
  marks := by simp [methodKind, RecordKind.named, Field.marks_of]
  independent := by simp [methodKind, RecordKind.named, Field.independent_of]

theorem finds_scope {scope : Scope} (h : Part key (IsScope scope) False part)
    (hdepth : ∀ member ∈ part, member.2.depth ≤ levels) :
    ∃ entry, Finds TreeFile.scope levels key part (some entry) ∧ entry.Becomes scope := by
  cases h with
  | @written node h =>
    obtain ⟨entry, hentry, hscope⟩ :=
      h.exists_read (hdepth _ List.mem_cons_self) (Nat.lt_succ_self levels)
    exact ⟨entry, .written hentry, hscope⟩
  | omitted h => cases h

theorem IsMethod.exists_read {method : Method} (h : IsMethod method node)
    (hdepth : node.depth ≤ levels) :
    ∃ entry, methodKind.decoder levels node = .ok entry ∧ entry.toMethod = .ok method := by
  obtain ⟨token, slotToken, lines, scope, constants, iteratorClass, iteratorScopes, htoken,
    hslot, hlines, hscope, hconstants, hclass, hspans, hobject⟩ := h
  obtain ⟨inner, rfl, hinner, hread⟩ := decoder_of_isObject methodKind_orderless hobject hdepth
  simp only [List.forall_mem_cons] at hinner
  obtain ⟨dtoken, dslot, dlines, dscope, dconstants, dclass, dspans, -⟩ := hinner
  have htoken := htoken.finds_required dtoken fun _ h _ => IsToken.read h
  obtain ⟨slot?, hslot, eslot⟩ := finds_token hslot dslot
  obtain ⟨lines?, hlines, elines⟩ := hlines.finds_defaulted dlines fun _ h hfits =>
    h.read hfits fun _ _ _ => IsLines.read
  obtain ⟨scopeEntry, hscope, escope⟩ := finds_scope hscope dscope
  obtain ⟨constants?, hconstants, econstants⟩ := finds_constants hconstants dconstants
  obtain ⟨class?, hclass, eclass⟩ := hclass.finds_defaulted dclass fun _ h _ => IsText.read h
  obtain ⟨spans?, hspans, espans⟩ := hspans.finds_defaulted dspans fun _ h hfits =>
    h.read hfits fun _ _ _ => IsSpan.read
  refine ⟨⟨method.token, slot?.join, lines?.getD [], scopeEntry, constants?.getD [],
    class?.getD "", spans?.getD []⟩, ?_, ?_⟩
  · refine hread ⟨some method.token, slot?, lines?, some scopeEntry, constants?, class?, spans?⟩ _
      ?_ rfl
    refine fillMembers_part (MethodDraft.mk · none none none none none none) rfl rfl
      (fun _ => rfl) htoken ?_
    refine fillMembers_part (MethodDraft.mk _ · none none none none none) rfl rfl
      (fun _ => rfl) hslot ?_
    refine fillMembers_part (MethodDraft.mk _ _ · none none none none) rfl rfl
      (fun _ => rfl) hlines ?_
    refine fillMembers_part (MethodDraft.mk _ _ _ · none none none) rfl rfl
      (fun _ => rfl) hscope ?_
    refine fillMembers_part (MethodDraft.mk _ _ _ _ · none none) rfl rfl
      (fun _ => rfl) hconstants ?_
    refine fillMembers_part (MethodDraft.mk _ _ _ _ _ · none) rfl rfl (fun _ => rfl) hclass ?_
    refine fillMembers_part (MethodDraft.mk _ _ _ _ _ _ ·) rfl rfl (fun _ => rfl) hspans ?_
    rfl
  · rw [MethodEntry.toMethod, escope method.token, ok_bind,
      mapM_toConstant econstants method.token, ok_bind, eslot, elines, eclass, espans]
    rfl

/-! ## Names -/

theorem nameKind_orderless : nameKind.Orderless where
  marks := by simp [nameKind, RecordKind.named, Field.marks_of]
  independent := by simp [nameKind, RecordKind.named, Field.independent_of]

theorem IsName.read {member : Member} (h : IsName member node) (hdepth : node.depth ≤ levels) :
    nameKind.decoder levels node = .ok member := by
  obtain ⟨declaringType, name, htype, hname, hobject⟩ := h
  obtain ⟨inner, rfl, hinner, hread⟩ := decoder_of_isObject nameKind_orderless hobject hdepth
  simp only [List.forall_mem_cons] at hinner
  obtain ⟨dtype, dname, -⟩ := hinner
  obtain ⟨type?, htype, etype⟩ := Part.finds_optional htype dtype string_null_ne_ok
    fun _ _ => IsText.read
  have hname := hname.finds_required dname fun _ h _ => IsText.read h
  refine hread ⟨type?, some member.name⟩ member ?_ ?_
  · refine fillMembers_part (NameDraft.mk · none) rfl rfl (fun _ => rfl) htype ?_
    refine fillMembers_part (NameDraft.mk _ ·) rfl rfl (fun _ => rfl) hname ?_
    rfl
  · show Except.ok (Member.mk type?.join member.name) = _
    rw [etype]

/-- Names are read, and each of their keys spells a token. -/
theorem IsNames.exists_read (h : IsNames node) (hdepth : node.depth ≤ levels) :
    ∃ names, Decoder.entries nameKind.decoder levels node = .ok names ∧
      ∀ entry ∈ names, ∃ token, Token.parse? entry.1 = some token := by
  obtain ⟨members, rfl, hmembers⟩ := h
  obtain ⟨inner, rfl, hinner⟩ := Node.depth_object_le_iff.1 hdepth
  have hmember : ∀ entry ∈ members, ∃ result : String × Member,
      (do
        let key ← entry.1
        let value ← nameKind.decoder inner entry.2
        return (key, value)) = .ok result ∧
        ∃ token, Token.parse? result.1 = some token := by
    intro entry hmem
    obtain ⟨token, text, member, hkey, hspelling, hname⟩ := hmembers entry hmem
    refine ⟨(text, member), ?_, token, Token.parse?_of_isSpelling hspelling⟩
    rw [hkey, ok_bind, hname.read (hinner entry hmem), ok_bind]
    rfl
  obtain ⟨names, hnames, htokens⟩ := Json.exists_mapM_eq_ok hmember
  refine ⟨names, ?_, htokens⟩
  show (members.mapM _ >>= fun pairs => Decoder.ending pairs none) = _
  rw [hnames]
  rfl

/-! ## Trees -/

theorem treeKind_orderless : treeKind.Orderless where
  marks := by simp [treeKind, RecordKind.named, Field.marks_of]
  independent := by simp [treeKind, RecordKind.named, Field.independent_of]

/-- A tree is read from each of its forms. -/
theorem IsTree.exists_read {tree : SymbolTree} (h : IsTree tree node)
    (hdepth : node.depth ≤ levels) :
    ∃ file names, treeKind.decoder levels node = .ok file ∧
      file.toTree = .ok ⟨tree, names⟩ := by
  obtain ⟨documents, methods, entryPoint, names, hdocuments, hmethods, hentry, hnames,
    hobject⟩ := h
  obtain ⟨inner, rfl, hinner, hread⟩ := decoder_of_isObject treeKind_orderless hobject hdepth
  simp only [List.forall_mem_cons] at hinner
  obtain ⟨ddocuments, dmethods, dentry, dnames, -⟩ := hinner
  obtain ⟨documents?, hdocuments, edocuments⟩ :=
    hdocuments.finds_defaulted ddocuments fun _ h hfits => h.read hfits fun _ _ _ =>
      IsDocument.read
  have hmethod : ∀ method ∈ tree.methods, ∀ item level, level < inner → IsMethod method item →
      item.depth ≤ level →
        ∃ entry, methodKind.decoder level item = .ok entry ∧ entry.toMethod = .ok method :=
    fun _ _ _ _ _ => IsMethod.exists_read
  obtain ⟨methods?, hmethods, emethods⟩ := hmethods.finds_list dmethods hmethod
  obtain ⟨entryPoint?, hentry, eentry⟩ := Part.finds_optional hentry dentry token_null_ne_ok
    fun _ _ => IsToken.read
  have hnames : ∃ found, Finds (Decoder.entries nameKind.decoder) inner "names" names found ∧
      ∀ entry ∈ found.getD [], ∃ token, Token.parse? entry.1 = some token :=
    hnames.exists_finds dnames (fun _ => IsNames.exists_read) fun _ _ hmem =>
      absurd hmem List.not_mem_nil
  obtain ⟨names?, hnames, enames⟩ := hnames
  have htable : ∀ entry ∈ (Dictionary.ofList (names?.getD [])).entries,
      ∃ token, Token.parse? entry.1 = some token := by
    intro entry hmem
    obtain ⟨other, hother, hsame⟩ :=
      List.mem_map.1 (Dictionary.mem_keys_ofList.1 (List.mem_map_of_mem hmem))
    exact hsame ▸ enames other hother
  have hnamed : ∃ table, namesOf (Dictionary.ofList (names?.getD [])).entries .empty = .ok table :=
    exists_namesOf_iff.2 htable
  obtain ⟨table, htable⟩ := hnamed
  refine ⟨⟨documents?.getD [], methods?.getD [], entryPoint?.join, names?.getD []⟩, table, ?_, ?_⟩
  · refine hread ⟨documents?, methods?, entryPoint?, names?⟩ _ ?_ rfl
    refine fillMembers_part (TreeDraft.mk · none none none) rfl rfl (fun _ => rfl) hdocuments ?_
    refine fillMembers_part (TreeDraft.mk _ · none none) rfl rfl (fun _ => rfl) hmethods ?_
    refine fillMembers_part (TreeDraft.mk _ _ · none) rfl rfl (fun _ => rfl) hentry ?_
    refine fillMembers_part (TreeDraft.mk _ _ _ ·) rfl rfl (fun _ => rfl) hnames ?_
    rfl
  · rw [TreeEntry.toTree, Json.mapM_eq_ok_iff.2 emethods, ok_bind, htable, ok_bind, edocuments,
      eentry]
    rfl

end DebugSymbols.TreeFile
