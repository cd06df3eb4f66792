import DebugSymbols.PathMap
import DebugSymbols.Proofs.Emit.Serialization

/-!
# What remapping does to a tree

Remapping goes through the documents that line groups refer to, and each of them is visited once: so
its path is resolved once, however many line groups refer to it, and also if the map is chained. All
other documents, the methods and the entry point stay as they are. For the points of a method this
says that they are in the paths to which the paths of their documents resolve.
-/

namespace DebugSymbols

/-- The document with the path that a map resolves its path to. -/
def Document.relocate (map : PathMap) (document : Document) : Document :=
  { document with path := map.resolve document.path }

/-- The points with their document relocated. -/
def Stretch.relocate (map : PathMap) (stretch : Stretch) : Stretch :=
  ⟨stretch.document.relocate map, stretch.points⟩

theorem PathMap.resolve_of_isEmpty {map : PathMap} (h : map.isEmpty = true) (path : String) :
    map.resolve path = path := by
  have hentries : map.entries.entries = [] := List.isEmpty_iff.1 h
  rw [resolve, get?, Dictionary.get?, hentries]
  rfl

namespace SymbolTree

/-! ## The documents that are referred to -/

theorem mem_insertId {id other : DocumentId} {ids : List DocumentId} :
    other ∈ insertId id ids ↔ other = id ∨ other ∈ ids := by
  induction ids with
  | nil => simp [insertId]
  | cons first rest ih =>
    rw [insertId]
    split
    · exact List.mem_cons
    · split
      · rename_i hsame
        have heq : id = first := congrArg DocumentId.mk hsame
        subst heq
        simp
      · rw [List.mem_cons, ih, List.mem_cons, or_left_comm]

/-- Positions are put in where they belong. -/
theorem pairwise_insertId (id : DocumentId) {ids : List DocumentId}
    (h : ids.Pairwise fun a b => a.index < b.index) :
    (insertId id ids).Pairwise fun a b => a.index < b.index := by
  induction ids with
  | nil => exact List.pairwise_singleton _ _
  | cons first rest ih =>
    obtain ⟨hfirst, hrest⟩ := List.pairwise_cons.1 h
    rw [insertId]
    split
    · rename_i hlt
      refine h.cons (List.forall_mem_cons.2 ⟨hlt, fun other hmem => ?_⟩)
      exact hlt.trans (hfirst other hmem)
    · rename_i hle
      split
      · exact h
      · rename_i hne
        refine (ih hrest).cons fun other hmem => ?_
        rcases mem_insertId.1 hmem with rfl | hmem
        · omega
        · exact hfirst other hmem

/-- The positions that are referred to are ascending. -/
theorem pairwise_references (tree : SymbolTree) :
    tree.references.Pairwise fun a b => a.index < b.index := by
  rw [references]
  generalize (tree.methods.flatMap fun method => method.lines.map (·.document)) = ids
  induction ids with
  | nil => exact List.Pairwise.nil
  | cons id ids ih => exact pairwise_insertId id ih

/-- Each position is referred to once. -/
theorem nodup_references (tree : SymbolTree) : tree.references.Nodup := by
  refine tree.pairwise_references.imp ?_
  rintro a _ hlt rfl
  exact Nat.lt_irrefl _ hlt

theorem mem_references {tree : SymbolTree} {id : DocumentId} :
    id ∈ tree.references ↔ ∃ method ∈ tree.methods, ∃ group ∈ method.lines, group.document = id := by
  have hfold : ∀ ids : List DocumentId, id ∈ ids.foldr insertId [] ↔ id ∈ ids := by
    intro ids
    induction ids with
    | nil => rfl
    | cons other ids ih => rw [List.foldr_cons, mem_insertId, ih, List.mem_cons]
  rw [references, hfold]
  simp only [List.mem_flatMap, List.mem_map]

/-! ## Remapping -/

variable {map : PathMap}

theorem document?_setPath (tree : SymbolTree) (id other : DocumentId) (path : String) :
    (tree.setPath id path).document? other =
      if other = id then (tree.document? other).map fun document => { document with path }
      else tree.document? other := by
  have hindex : id.index = other.index ↔ other = id :=
    ⟨fun h => congrArg DocumentId.mk h.symm, fun h => h ▸ rfl⟩
  rw [document?, document?, setPath, List.getElem?_modify]
  simp only [hindex]
  split
  · rfl
  · exact congrFun Option.map_id_fun' _

/-- One document is visited, and everything else stays as it is. -/
theorem document?_remapOne (progress : Remapped) (id other : DocumentId) :
    (remapOne map progress id).tree.document? other =
      if other = id then (progress.tree.document? other).map (Document.relocate map)
      else progress.tree.document? other := by
  by_cases heq : other = id
  · subst heq
    rw [if_pos rfl, remapOne]
    cases hdocument : progress.tree.document? other with
    | none => exact hdocument
    | some document =>
      cases hget : map.get? document.path with
      | none => simp [hget, hdocument, Document.relocate, PathMap.resolve]
      | some target =>
        by_cases hsame : target = document.path
        · simp [hget, hdocument, hsame, Document.relocate, PathMap.resolve]
        · simp [hget, hdocument, hsame, Document.relocate, PathMap.resolve, document?_setPath]
  · rw [if_neg heq, remapOne]
    split
    · rfl
    · split
      · rfl
      · split
        · rfl
        · rw [document?_setPath, if_neg heq]

theorem remapOne_tree (map : PathMap) (progress : Remapped) (id : DocumentId) :
    (remapOne map progress id).tree.methods = progress.tree.methods ∧
      (remapOne map progress id).tree.entryPoint = progress.tree.entryPoint := by
  rw [remapOne]
  split
  · exact ⟨rfl, rfl⟩
  · split
    · exact ⟨rfl, rfl⟩
    · split <;> exact ⟨rfl, rfl⟩

/-- Documents that are visited once each are resolved once. -/
theorem document?_foldl_remapOne {ids : List DocumentId} (hnodup : ids.Nodup)
    (progress : Remapped) (id : DocumentId) :
    (ids.foldl (remapOne map) progress).tree.document? id =
      if id ∈ ids then (progress.tree.document? id).map (Document.relocate map)
      else progress.tree.document? id := by
  induction ids generalizing progress with
  | nil => rfl
  | cons first ids ih =>
    obtain ⟨hfirst, hids⟩ := List.nodup_cons.1 hnodup
    rw [List.foldl_cons, ih hids, document?_remapOne]
    by_cases heq : id = first
    · rw [if_pos heq, if_neg (heq ▸ hfirst), if_pos (heq ▸ List.mem_cons_self)]
    · simp only [heq, List.mem_cons, false_or, if_false]

theorem foldl_remapOne_tree (map : PathMap) (ids : List DocumentId) (progress : Remapped) :
    (ids.foldl (remapOne map) progress).tree.methods = progress.tree.methods ∧
      (ids.foldl (remapOne map) progress).tree.entryPoint = progress.tree.entryPoint := by
  induction ids generalizing progress with
  | nil => exact ⟨rfl, rfl⟩
  | cons first ids ih =>
    obtain ⟨hmethods, hentry⟩ := remapOne_tree map progress first
    rw [List.foldl_cons, (ih _).1, (ih _).2]
    exact ⟨hmethods, hentry⟩

/-- The documents that line groups refer to are resolved, and the others are not. -/
theorem document?_remap (tree : SymbolTree) (map : PathMap) (id : DocumentId) :
    (tree.remap map).tree.document? id =
      if id ∈ tree.references then (tree.document? id).map (Document.relocate map)
      else tree.document? id := by
  rw [remap]
  split
  · rename_i hempty
    have hself : Document.relocate map = fun document => document := by
      funext document
      rw [Document.relocate, PathMap.resolve_of_isEmpty hempty]
    simp [hself]
  · exact document?_foldl_remapOne tree.nodup_references _ id

/-- No documents come or go. -/
theorem length_documents_remap (tree : SymbolTree) (map : PathMap) :
    (tree.remap map).tree.documents.length = tree.documents.length := by
  have hle : ∀ index, (tree.remap map).tree.documents.length ≤ index ↔
      tree.documents.length ≤ index := by
    intro index
    rw [← List.getElem?_eq_none_iff, ← List.getElem?_eq_none_iff]
    show (tree.remap map).tree.document? ⟨index⟩ = none ↔ tree.document? ⟨index⟩ = none
    rw [document?_remap]
    split
    · exact Option.map_eq_none_iff
    · rfl
  exact le_antisymm ((hle _).2 le_rfl) ((hle _).1 le_rfl)

/-- Nothing but documents is remapped. -/
theorem remap_tree (tree : SymbolTree) (map : PathMap) :
    (tree.remap map).tree.methods = tree.methods ∧
      (tree.remap map).tree.entryPoint = tree.entryPoint := by
  rw [remap]
  split
  · exact ⟨rfl, rfl⟩
  · exact foldl_remapOne_tree _ _ _

/-! ## Points -/

/-- Remapping resolves the documents of points. -/
theorem stretches_remap (tree : SymbolTree) (map : PathMap) {lines : List LineGroup}
    (hlines : ∀ group ∈ lines, group.document ∈ tree.references) :
    (tree.remap map).tree.stretches lines = (tree.stretches lines).map (Stretch.relocate map) := by
  induction lines with
  | nil => rfl
  | cons group lines ih =>
    obtain ⟨hgroup, hrest⟩ := List.forall_mem_cons.1 hlines
    rw [stretches, stretches, ih hrest, document?_remap, if_pos hgroup]
    split
    · rfl
    · cases tree.document? group.document <;> rfl

theorem stretches_remap_of_mem {tree : SymbolTree} {method : Method} (map : PathMap)
    (hmem : method ∈ tree.methods) :
    (tree.remap map).tree.stretches method.lines =
      (tree.stretches method.lines).map (Stretch.relocate map) :=
  tree.stretches_remap map fun group hgroup =>
    mem_references.2 ⟨method, hmem, group, hgroup, rfl⟩

/-- The documents that are used after remapping are those that were used before, resolved. -/
theorem usedDocuments_remap (tree : SymbolTree) (map : PathMap) :
    (tree.remap map).tree.usedDocuments tree.methods =
      (tree.usedDocuments tree.methods).map (Document.relocate map) := by
  rw [usedDocuments, usedDocuments, List.map_flatMap]
  refine List.flatMap_congr fun method hmem => ?_
  rw [stretches_remap_of_mem map hmem, List.map_map, List.map_map]
  rfl

/-- The points of all line groups with points whose document has a path that resolves to the given
one, in their order. -/
def pointsResolvedTo (tree : SymbolTree) (map : PathMap) (lines : List LineGroup) (path : String) :
    List SequencePoint :=
  (lines.filter fun group => !group.isEmpty && (tree.document? group.document).any
    fun document => map.resolve document.path = path).flatMap (·.points)

/-- The points that a method has in a path after remapping are those in documents with a path that
resolves to it. -/
theorem pointsIn_stretches_remap {tree : SymbolTree} {method : Method} (map : PathMap)
    (hmem : method ∈ tree.methods) (path : String) :
    Stretch.pointsIn ((tree.remap map).tree.stretches method.lines) path =
      tree.pointsResolvedTo map method.lines path := by
  rw [stretches_remap_of_mem map hmem]
  generalize method.lines = lines
  induction lines with
  | nil => rfl
  | cons group lines ih =>
    rw [stretches, pointsResolvedTo, List.filter_cons]
    cases group.isEmpty with
    | true => exact ih
    | false =>
      cases tree.document? group.document with
      | none => exact ih
      | some document =>
        rw [if_neg Bool.false_ne_true, List.map_cons, Stretch.pointsIn_cons, ih]
        by_cases hpath : map.resolve document.path = path <;>
          simp [Stretch.relocate, Stretch.path, Document.relocate, pointsResolvedTo, hpath]

end SymbolTree

end DebugSymbols
