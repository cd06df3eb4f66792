import DebugSymbols.Proofs.TreeFile.Decoding

/-!
# Tree files lose nothing

A tree that can be written has a form, and whatever form it has been given, reading this form and
loading the file gives the tree back. An integer that does not fit its type never gets as far as a
tree.
-/

namespace DebugSymbols.TreeFile

/-- A tree that can be written has a form. From each of its forms, at any number of levels that
suffices, a file is read that becomes the tree, and the tree is what the file is loaded as. A file
with an integer constant that does not fit its type becomes no tree, and a file that becomes a tree
has its integer constants there as they stand in the file. -/
theorem tree_read_back :
    (∀ tree : SymbolTree, tree.IsExpressible →
      (∃ node, IsTree tree node) ∧
        ∀ node levels, IsTree tree node → node.depth ≤ levels →
          ∃ file loaded, treeKind.decoder levels node = .ok file ∧ file.toTree = .ok loaded ∧
            takeTree (some loaded.tree) = (.ok tree, none)) ∧
      (∀ file : TreeEntry, (∃ entry ∈ file.allConstants, ¬ entry.Fits) →
        ∃ fault, file.toTree = .error fault) ∧
      ∀ (file : TreeEntry) (loaded : NamedTree), file.toTree = .ok loaded →
        List.Forall₂ ConstantEntry.Keeps file.allConstants loaded.tree.allConstants := by
  refine ⟨fun tree h => ⟨exists_isTree h, fun node levels hnode hdepth => ?_⟩,
    fun _ => exists_toTree_eq_error, fun _ _ => keeps_of_toTree⟩
  obtain ⟨file, names, hfile, htree⟩ := hnode.exists_read hdepth
  exact ⟨file, ⟨tree, names⟩, hfile, htree, rfl⟩

/-- A method with a variable of the compiler's own and a constant. -/
def smallMethod : Method where
  token := ⟨1⟩
  slotToken := ⟨2⟩
  lines := []
  scope := ⟨⟨0, 18⟩, [⟨"a", 0, Variable.compilerGenerated⟩], [], []⟩
  constants := [⟨"Least", .i1 (-128), .null⟩]
  iteratorClass := ""
  iteratorScopes := []

/-- A form of the method, in which one token is a decimal number in a string and one is a number. -/
def smallMethodNode : Json.Node :=
  let variable_ := .object [(.ok "name", .string (.ok "a")), (.ok "slot", .number (.ofInt 0)),
    (.ok "compilerGenerated", .boolean true)] none
  let scope := .object [(.ok "offset", .number (.ofInt 0)), (.ok "length", .number (.ofInt 18)),
    (.ok "variables", .array [variable_] none)] none
  let constant := .object [(.ok "name", .string (.ok "Least")), (.ok "type", .string (.ok "i1")),
    (.ok "value", .number (.ofInt (-128)))] none
  .object [(.ok "token", .string (.ok (String.ofList (Nat.toDigits 10 1)))),
    (.ok "slotToken", .number (.ofInt 2)), (.ok "scope", scope),
    (.ok "constants", .array [constant] none)] none

theorem isMethod_smallMethodNode : IsMethod smallMethod smallMethodNode := by
  have hvariable : IsVariable ⟨"a", 0, Variable.compilerGenerated⟩ _ :=
    ⟨true, _, _, _, rfl, .written rfl, .written rfl, .written rfl, _, .refl _, rfl⟩
  have hconstant : IsConstant ⟨"Least", .i1 (-128), .null⟩ _ :=
    ⟨_, _, _, _, .written rfl, .written rfl, .written rfl, .omitted rfl, _, .refl _, rfl⟩
  have hscope : IsScope ⟨⟨0, 18⟩, [⟨"a", 0, Variable.compilerGenerated⟩], [], []⟩ _ :=
    isScope_iff.2 ⟨_, _, _, _, _, .written rfl, .written rfl,
      .written ⟨_, .cons hvariable .nil, rfl⟩, .omitted rfl, .omitted rfl, _, .refl _, rfl⟩
  exact ⟨_, _, _, _, _, _, _, .written (.decimal ⟨1⟩), .written (Or.inl .number), .omitted rfl,
    .written hscope, .written ⟨_, .cons hconstant .nil, rfl⟩, .omitted rfl, .omitted rfl, _,
    .refl _, rfl⟩

/-- A tree with a method and a document. -/
def smallTree : SymbolTree := ⟨[.csharp "a.cs"], [smallMethod], some ⟨1⟩⟩

/-- A form of the tree; the entry point is hexadecimal and comes first. -/
def smallNode : Json.Node :=
  let document := .object [(.ok "path", .string (.ok "a.cs"))] none
  .object [(.ok "entryPoint", .string (.ok (Token.text ⟨1⟩))),
    (.ok "documents", .array [document] none), (.ok "functions", .array [smallMethodNode] none)]
    none

theorem isTree_smallNode : IsTree smallTree smallNode := by
  have hdocument : IsDocument (.csharp "a.cs") _ :=
    ⟨_, _, _, _, .written rfl, .omitted rfl, .omitted rfl, .omitted rfl, _, .refl _, rfl⟩
  refine ⟨_, _, _, _, .written ⟨_, .cons hdocument .nil, rfl⟩,
    .written ⟨_, .cons isMethod_smallMethodNode .nil, rfl⟩,
    .written (Or.inl ⟨_, rfl, .hexadecimal ⟨1⟩⟩), .omitted trivial, _, ?_, rfl⟩
  exact (List.Perm.swap _ _ _).trans (.cons _ (.swap _ _ _))

theorem isExpressible_smallTree : smallTree.IsExpressible where
  locals := by
    simp [smallTree, smallMethod, Scope.all, Scope.allList, Variable.IsExpressible]
  constants := by decide
  positions := by decide

/-- A constant that needs nine bits in a type of eight. -/
def wideConstant : ConstantEntry := ⟨"Wide", "i1", .number (.integer 300), none⟩

/-- A file with the constant that is too wide. -/
def wideFile : TreeEntry :=
  ⟨[], [⟨⟨1⟩, none, [], ⟨⟨0, 18⟩, [], [wideConstant], []⟩, [], "", []⟩], none, []⟩

theorem not_fits_wideConstant : ¬ wideConstant.Fits := by
  intro h
  obtain ⟨n, hvalue, -, hhigh⟩ := h _ _ rfl
  cases hvalue
  exact absurd hhigh (by decide)

/-- The small tree is read from its form, at the levels that a file may have, and the file with the
constant that is too wide is no tree. -/
theorem smallTree_read_back :
    (smallTree.IsExpressible ∧ IsTree smallTree smallNode ∧ smallNode.depth ≤ maxLevels ∧
      ∃ file loaded, treeKind.decoder maxLevels smallNode = .ok file ∧
        file.toTree = .ok loaded ∧ takeTree (some loaded.tree) = (.ok smallTree, none)) ∧
      ∃ fault, wideFile.toTree = .error fault := by
  have hdepth : smallNode.depth ≤ maxLevels := by decide
  have hread := (tree_read_back.1 smallTree isExpressible_smallTree).2 smallNode maxLevels
    isTree_smallNode hdepth
  have hmem : wideConstant ∈ wideFile.allConstants := List.mem_cons_self
  exact ⟨⟨isExpressible_smallTree, isTree_smallNode, hdepth, hread⟩,
    tree_read_back.2.1 wideFile ⟨wideConstant, hmem, not_fits_wideConstant⟩⟩

end DebugSymbols.TreeFile
