import DebugSymbols.Proofs.Emit.Lossless
import DebugSymbols.Proofs.Emit.Sections
import DebugSymbols.Proofs.Remap

/-!
# A path map influences documents only

Relocating a tree with one path map or another leaves the same log, but for the calls that define
documents and points. Of these the map decides nothing but the paths: a method has in a path, one
after the other, the points of all its line groups whose document had a path that resolves to it.
This is so although a map may give several documents one path, or exchange paths, and thereby
changes which documents are defined, their handles, and how points are gathered.
-/

namespace DebugSymbols

/-- Whether a call is about a document. -/
def Entry.concernsDocuments : Entry → Bool
  | defineDocument _ _ | defineSequencePoints _ _ => true
  | _ => false

/-- A log without the calls about documents. -/
def withoutDocuments (log : List Entry) : List Entry :=
  log.filter fun entry => !entry.concernsDocuments

theorem withoutDocuments_append (front back : List Entry) :
    withoutDocuments (front ++ back) = withoutDocuments front ++ withoutDocuments back :=
  List.filter_append ..

theorem withoutDocuments_definitions (known documents : List Document) :
    withoutDocuments (definitions known documents) = [] := by
  rw [withoutDocuments, List.filter_eq_nil_iff, definitions, List.forall_mem_map]
  simp [Entry.concernsDocuments]

/-- The calls for a method that are not about documents. -/
def Method.programEntries (method : Method) : List Entry :=
  .openMethod method.token :: (method.scope.entries method.slotToken method.constants ++
    method.attributes ++ [.closeMethod])

/-- What is left of the calls of a method does not depend on its documents and points. -/
theorem Method.withoutDocuments_entries (method : Method) (documents : List Document)
    (stretches : List Stretch) :
    withoutDocuments (method.entries documents stretches) = method.programEntries := by
  have hlines : withoutDocuments ((Stretch.paths stretches).map fun path =>
      .defineSequencePoints (handleOf documents path)
        (.ofPoints (Stretch.pointsIn stretches path))) = [] := by
    rw [withoutDocuments, List.filter_eq_nil_iff, List.forall_mem_map]
    simp [Entry.concernsDocuments]
  have hscope : withoutDocuments (method.scope.entries method.slotToken method.constants) =
      method.scope.entries method.slotToken method.constants := by
    refine List.filter_eq_self.2 fun entry hentry => ?_
    have hkind := Scope.isOfScope_of_mem_entries _ _ _ entry hentry
    cases entry <;> first | rfl | cases hkind
  have hattributes : withoutDocuments method.attributes = method.attributes := by
    refine List.filter_eq_self.2 ?_
    rw [attributes, List.forall_mem_append]
    constructor <;> split <;> simp [metadata, Entry.concernsDocuments]
  show .openMethod method.token :: withoutDocuments (_ ++ _ ++ _ ++ _) = _
  rw [withoutDocuments_append, withoutDocuments_append, withoutDocuments_append, hlines, hscope,
    hattributes]
  rfl

namespace SymbolTree

/-- The calls for a tree that are not about documents. -/
def programEntries (tree : SymbolTree) (options : Options) : List Entry :=
  tree.entryPointEntries options ++ tree.methods.flatMap Method.programEntries

/-- What is left of the log of a tree does not depend on its documents. -/
theorem withoutDocuments_log (tree : SymbolTree) (options : Options) :
    withoutDocuments (tree.log options) = tree.programEntries options := by
  have hentry : withoutDocuments (tree.entryPointEntries options) =
      tree.entryPointEntries options := by
    rw [entryPointEntries]
    split
    · split <;> rfl
    · rfl
  have hmethods : ∀ (methods : List Method) (known : List Document),
      withoutDocuments (tree.methodEntries known methods) =
        methods.flatMap Method.programEntries := by
    intro methods
    induction methods with
    | nil => exact fun _ => rfl
    | cons method methods ih =>
      intro known
      rw [methodEntries, withoutDocuments_append, withoutDocuments_append,
        withoutDocuments_definitions, Method.withoutDocuments_entries, ih]
      rfl
  rw [log, withoutDocuments_append, hentry, hmethods, programEntries]

theorem programEntries_remap (tree : SymbolTree) (map : PathMap) (options : Options) :
    (tree.remap map).tree.programEntries options = tree.programEntries options := by
  obtain ⟨hmethods, hentry⟩ := tree.remap_tree map
  rw [programEntries, programEntries, entryPointEntries, entryPointEntries, hmethods, hentry]

end SymbolTree

/-! ## The first document of a path -/

/-- Of the documents with one path the first one is fresh, unless the path is known. -/
theorem filter_fresh (known documents : List Document) (path : String) :
    (fresh known documents).filter (fun document => document.path = path) =
      if path ∈ known.map (·.path) then []
      else (documents.find? fun document => document.path = path).toList := by
  induction documents generalizing known with
  | nil => simp [fresh]
  | cons document documents ih =>
    rw [fresh, List.find?_cons]
    by_cases hpath : document.path = path
    · subst hpath
      by_cases hknown : document.path ∈ known.map (·.path)
      · rw [if_pos hknown, ih, if_pos hknown, if_pos hknown]
      · have hmem : document.path ∈ (known ++ [document]).map (·.path) := by simp
        rw [if_neg hknown, if_neg hknown, List.filter_cons, ih, if_pos hmem]
        simp
    · have hsame : path ∈ (known ++ [document]).map (·.path) ↔ path ∈ known.map (·.path) := by
        simp [Ne.symm hpath]
      by_cases hknown : document.path ∈ known.map (·.path)
      · rw [if_pos hknown, ih]
        simp [hpath]
      · rw [if_neg hknown, List.filter_cons, ih]
        simp only [hsame]
        simp [hpath]

/-- The document that is defined for a path is the first one that is used whose path resolves to
it. -/
theorem SymbolTree.filter_definedDocuments_remap (tree : SymbolTree) (map : PathMap)
    (path : String) :
    (tree.remap map).tree.definedDocuments.filter (fun document => document.path = path) =
      (((tree.usedDocuments tree.methods).find? fun original =>
        map.resolve original.path = path).map fun original => { original with path }).toList := by
  have hnone : path ∉ List.map (·.path) ([] : List Document) := List.not_mem_nil
  rw [definedDocuments, (tree.remap_tree map).1, usedDocuments_remap, filter_fresh, if_neg hnone,
    List.find?_map]
  show (Option.map _ ((tree.usedDocuments tree.methods).find? fun original =>
    map.resolve original.path = path)).toList = _
  cases hfirst : (tree.usedDocuments tree.methods).find? fun original =>
      map.resolve original.path = path with
  | none => rfl
  | some original =>
    have hresolve : map.resolve original.path = path := by simpa using List.find?_some hfirst
    rw [Option.map_some, Option.map_some, Document.relocate, hresolve]

/-! ## Relocations -/

/-- The outcome of relocating a tree into a new recording. -/
abbrev SymbolTree.relocatedBy (tree : SymbolTree) (options : Options) (names : Option Names)
    (failOn : Option Operation) (map : PathMap) : Outcome Recording Summary :=
  (Emitter.recording options names).relocate tree map (Recording.start failOn)

/-- The path map influences documents only. Let a relocation with a map succeed. Then every other
relocation of the tree that succeeds leaves the same log, up to the calls that define documents and
points. Each method has in each path the points of its line groups whose document had a path that
resolves to it, in their order. And of the documents in which the tree has points, the first one
whose path resolves to a path is what is defined for this path. -/
theorem path_map_influences_only_documents (options : Options) (names : Option Names)
    (failOn : Option Operation) (tree : SymbolTree) (map : PathMap) (summary : Summary)
    (h : (tree.relocatedBy options names failOn map).result = .ok summary) :
    let log := (tree.relocatedBy options names failOn map).sink.entries.toList
    let documents := (tree.relocatedBy options names failOn map).sink.documents.toList
    (∀ otherNames otherFailOn other otherSummary,
        (tree.relocatedBy options otherNames otherFailOn other).result = .ok otherSummary →
          withoutDocuments
              (tree.relocatedBy options otherNames otherFailOn other).sink.entries.toList =
            withoutDocuments log) ∧
      (sections log).1 = [] ∧
      List.Forall₂ (fun method section_ => section_.token = method.token ∧
          ∀ path, section_.pointsIn documents path =
            tree.pointsResolvedTo map method.lines path) tree.methods (sections log).2 ∧
      ∀ path, documents.filter (fun document => document.path = path) =
        (((tree.usedDocuments tree.methods).find? fun original =>
          map.resolve original.path = path).map fun original => { original with path }).toList := by
  intro log documents
  have hwithout : ∀ {names failOn map summary},
      (tree.relocatedBy options names failOn map).result = .ok summary →
        withoutDocuments (tree.relocatedBy options names failOn map).sink.entries.toList =
          tree.programEntries options ++ [.close] := by
    intro names failOn map summary h
    rw [(Emitter.recorded_relocate h).1, withoutDocuments_append,
      SymbolTree.withoutDocuments_log, tree.programEntries_remap]
    rfl
  obtain ⟨hlog, hdocuments, -⟩ := Emitter.recorded_relocate h
  have hsections : sections log = ([], tree.methods.map fun method =>
      method.section_ (tree.remap map).tree documents) := by
    have hclose : sections [.close] = ([], []) := rfl
    show sections (tree.relocatedBy options names failOn map).sink.entries.toList = _
    rw [hlog, sections_append (by rw [hclose]), SymbolTree.sections_log, (tree.remap_tree map).1,
      ← hdocuments, hclose, List.append_nil]
  refine ⟨fun _ _ _ _ hother => (hwithout hother).trans (hwithout h).symm, ?_, ?_, ?_⟩
  · rw [hsections]
  · rw [hsections, List.forall₂_map_right_iff, List.forall₂_same]
    intro method hmem
    refine ⟨rfl, fun path => ?_⟩
    have hknown : method.UsesKnown (tree.remap map).tree documents := by
      show method.UsesKnown _ (tree.relocatedBy options names failOn map).sink.documents.toList
      rw [hdocuments]
      exact Method.usesKnown_definedDocuments ((tree.remap_tree map).1 ▸ hmem)
    rw [Method.pointsIn_section hknown, SymbolTree.pointsIn_stretches_remap map hmem]
  · intro path
    show (tree.relocatedBy options names failOn map).sink.documents.toList.filter _ = _
    rw [hdocuments]
    exact tree.filter_definedDocuments_remap map path

/-- Two paths merged into one by one map, and exchanged by another one. The first method has points
in both paths in turn: merged, they stay in this order. -/
theorem path_map_influences_only_documents_sharedDocuments :
    let merged := (sharedDocuments.relocatedBy .strict none none (.ofList [("b.cs", "a.cs")])).sink
    let exchanged := (sharedDocuments.relocatedBy .strict none none
      (.ofList [("a.cs", "b.cs"), ("b.cs", "a.cs")])).sink
    withoutDocuments exchanged.entries.toList = withoutDocuments merged.entries.toList ∧
      (∃ first second, (sections merged.entries.toList).2 = [first, second] ∧
        first.pointsIn merged.documents.toList "a.cs" =
            [⟨0, 3, 1, 3, 9⟩, ⟨4, 7, 1, 7, 2⟩, .hidden 6] ∧
          second.pointsIn merged.documents.toList "a.cs" = [⟨0, 9, 1, 9, 2⟩]) ∧
      (merged.documents.toList.filter fun document => document.path = "a.cs") =
        [.csharp "a.cs"] := by
  intro merged exchanged
  have hmerged : (sharedDocuments.relocatedBy .strict none none
      (.ofList [("b.cs", "a.cs")])).result = .ok ⟨2, 1, 1, 4, 3, 2⟩ := by cbv
  have hexchanged : (sharedDocuments.relocatedBy .strict none none
      (.ofList [("a.cs", "b.cs"), ("b.cs", "a.cs")])).result = .ok ⟨2, 3, 2, 4, 3, 2⟩ := by cbv
  obtain ⟨hlogs, -, hpoints, hdocuments⟩ :=
    path_map_influences_only_documents .strict none none sharedDocuments _ _ hmerged
  refine ⟨hlogs _ _ _ _ hexchanged, ?_, (hdocuments "a.cs").trans (by decide)⟩
  obtain ⟨first, _, ⟨-, hfirst⟩, hrest, heq⟩ := List.forall₂_cons_left_iff.1 hpoints
  obtain ⟨second, _, ⟨-, hsecond⟩, hnil, rfl⟩ := List.forall₂_cons_left_iff.1 hrest
  cases hnil
  exact ⟨first, second, heq, (hfirst "a.cs").trans (by decide),
    (hsecond "a.cs").trans (by decide)⟩

end DebugSymbols
