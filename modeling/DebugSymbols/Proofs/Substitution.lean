import Mathlib.Data.List.Sort
import DebugSymbols.Proofs.Emit.Log
import DebugSymbols.Proofs.Remap

/-!
# Remapping substitutes paths one by one

Remapping goes through the positions that line groups refer to and changes the documents on its way,
but what becomes of a document can be said without the others: its path is resolved if a line group
refers to its position, and it stays as it is otherwise. The count and the notices follow from the
two trees alone. There is one notice for each position whose path has changed, so no document is
renamed twice, and positions without a document have no influence on anything.
-/

namespace DebugSymbols

/-! ## What a path resolves to -/

/-- The entries of a dictionary are the values that it gives to its keys. -/
theorem Dictionary.get?_eq_some_iff {κ υ : Type} [DecidableEq κ] {dictionary : Dictionary κ υ}
    {key : κ} {value : υ} :
    dictionary.get? key = some value ↔ (key, value) ∈ dictionary.entries := by
  obtain ⟨entries, hnodup⟩ := dictionary
  simp only [get?]
  induction entries with
  | nil => simp
  | cons entry rest ih =>
    obtain ⟨other, old⟩ := entry
    obtain ⟨hother, hrest⟩ := List.nodup_cons.1 hnodup
    by_cases heq : other = key
    · -- the key has no second entry
      subst heq
      have hnone : (other, value) ∉ rest := fun hmem =>
        hother (List.mem_map.2 ⟨_, hmem, rfl⟩)
      simp [hnone, eq_comm]
    · rw [List.find?_cons_of_neg (by simpa using heq), ih hrest, List.mem_cons]
      simp [Ne.symm heq]

namespace PathMap

variable {map : PathMap} {path : String}

/-- A path with an entry resolves to its target. -/
theorem resolve_of_mem {target : String} (h : (path, target) ∈ map.entries.entries) :
    map.resolve path = target := by
  rw [resolve, get?, Dictionary.get?_eq_some_iff.2 h]
  rfl

/-- A path without an entry resolves to itself. -/
theorem resolve_of_notMem (h : path ∉ map.entries.keys) : map.resolve path = path := by
  rw [resolve]
  cases hget : map.get? path with
  | none => rfl
  | some target =>
    exact absurd (List.mem_map_of_mem (Dictionary.get?_eq_some_iff.1 hget)) h

end PathMap

namespace SymbolTree

/-! ## Positions and their paths -/

/-- Whether a line group refers to a position. -/
def RefersTo (tree : SymbolTree) (id : DocumentId) : Prop :=
  ∃ method ∈ tree.methods, ∃ group ∈ method.lines, group.document = id

instance (tree : SymbolTree) (id : DocumentId) : Decidable (tree.RefersTo id) :=
  inferInstanceAs
    (Decidable (∃ method ∈ tree.methods, ∃ group ∈ method.lines, group.document = id))

/-- The positions that have documents, ascending. -/
def positions (tree : SymbolTree) : List DocumentId :=
  (List.range tree.documents.length).map DocumentId.mk

/-- The path of the document at a position. -/
def path? (tree : SymbolTree) (id : DocumentId) : Option String :=
  (tree.document? id).map (·.path)

/-- The notice of a position that has different paths in two trees. -/
def renaming? (before after : SymbolTree) (id : DocumentId) : Option Notice :=
  match before.path? id, after.path? id with
  | some old, some new => if old = new then none else some (.remapping id old new)
  | _, _ => none

/-- The tree without the line groups that refer to positions without a document. -/
def withoutDangling (tree : SymbolTree) : SymbolTree :=
  { tree with methods := tree.methods.map fun method =>
    { method with lines :=
      method.lines.filter fun group => group.document.index < tree.documents.length } }

theorem mem_positions {tree : SymbolTree} {id : DocumentId} :
    id ∈ tree.positions ↔ id.index < tree.documents.length := by
  simp only [positions, List.mem_map, List.mem_range]
  constructor
  · rintro ⟨index, hindex, rfl⟩
    exact hindex
  · exact fun hindex => ⟨id.index, hindex, rfl⟩

theorem pairwise_positions (tree : SymbolTree) :
    tree.positions.Pairwise fun a b => a.index < b.index :=
  List.pairwise_map.2 List.pairwise_lt_range

theorem refersTo_iff_mem_references {tree : SymbolTree} {id : DocumentId} :
    tree.RefersTo id ↔ id ∈ tree.references :=
  mem_references.symm

theorem document?_eq_none_iff {tree : SymbolTree} {id : DocumentId} :
    tree.document? id = none ↔ tree.documents.length ≤ id.index :=
  List.getElem?_eq_none_iff

/-- Of the positions that are referred to, those that have documents are met in ascending order. -/
theorem filter_references (tree : SymbolTree) :
    (tree.references.filter fun id => id.index < tree.documents.length) =
      tree.positions.filter fun id => tree.RefersTo id := by
  have : Std.Irrefl fun a b : DocumentId => a.index < b.index := ⟨fun a => Nat.lt_irrefl a.index⟩
  have : Std.Antisymm fun a b : DocumentId => a.index < b.index :=
    ⟨fun _ _ hlt hgt => absurd hlt (Nat.lt_asymm hgt)⟩
  refine (tree.pairwise_references.filter _).eq_of_mem_iff (tree.pairwise_positions.filter _)
    fun id => ?_
  simp only [List.mem_filter, refersTo_iff_mem_references, mem_positions, decide_eq_true_iff]
  exact and_comm

/-! ## What is told and counted on the way -/

/-- The notice of a document whose path a map replaces. -/
def replacement? (map : PathMap) (tree : SymbolTree) (id : DocumentId) : Option Notice :=
  (tree.document? id).bind fun document =>
    if map.resolve document.path = document.path then none
    else some (.remapping id document.path (map.resolve document.path))

/-- A document is told of, and counted, when its path is replaced. -/
theorem remapOne_told (map : PathMap) (progress : Remapped) (id : DocumentId) :
    (remapOne map progress id).notices =
        progress.notices ++ (replacement? map progress.tree id).toList ∧
      (remapOne map progress id).changed =
        progress.changed + (replacement? map progress.tree id).toList.length := by
  rw [remapOne, replacement?]
  cases progress.tree.document? id with
  | none => simp
  | some document =>
    rw [Option.bind_some, PathMap.resolve]
    cases hget : map.get? document.path with
    | none => simp [hget]
    | some target => by_cases hsame : target = document.path <;> simp [hget, hsame]

/-- Documents that are visited once each are told of as they were in the beginning. -/
theorem foldl_remapOne_told (map : PathMap) {ids : List DocumentId} (hnodup : ids.Nodup)
    (progress : Remapped) :
    (ids.foldl (remapOne map) progress).notices =
        progress.notices ++ ids.filterMap (replacement? map progress.tree) ∧
      (ids.foldl (remapOne map) progress).changed =
        progress.changed + (ids.filterMap (replacement? map progress.tree)).length := by
  induction ids generalizing progress with
  | nil => simp
  | cons first ids ih =>
    obtain ⟨hfirst, hids⟩ := List.nodup_cons.1 hnodup
    obtain ⟨hnotices, hchanged⟩ := remapOne_told map progress first
    have hlater : ids.filterMap (replacement? map (remapOne map progress first).tree) =
        ids.filterMap (replacement? map progress.tree) := by
      refine List.filterMap_congr fun id hid => ?_
      have hne : id ≠ first := fun heq => hfirst (heq ▸ hid)
      rw [replacement?, replacement?, document?_remapOne, if_neg hne]
    rw [List.foldl_cons, (ih hids _).1, (ih hids _).2, hlater, hnotices, hchanged,
      List.filterMap_cons]
    cases replacement? map progress.tree first <;> simp [Nat.add_assoc, Nat.add_comm]

/-- The warning of a chained map comes first, then a notice of each document whose path is replaced;
these are what is counted. -/
theorem remap_told (tree : SymbolTree) (map : PathMap) :
    (tree.remap map).notices = (if map.isChained then [.chainedMap] else []) ++
        tree.references.filterMap (replacement? map tree) ∧
      (tree.remap map).changed = (tree.references.filterMap (replacement? map tree)).length := by
  rw [remap]
  split
  · rename_i hempty
    have hentries : map.entries.entries = [] := List.isEmpty_iff.1 hempty
    have hnone : tree.references.filterMap (replacement? map tree) = [] := by
      refine List.filterMap_eq_nil_iff.2 fun id _ => ?_
      rw [replacement?]
      simp [PathMap.resolve_of_isEmpty hempty]
    rw [hnone, PathMap.isChained, hentries]
    exact ⟨rfl, rfl⟩
  · obtain ⟨hnotices, hchanged⟩ := foldl_remapOne_told map tree.nodup_references
      ⟨tree, 0, if map.isChained then [.chainedMap] else []⟩
    exact ⟨hnotices, hchanged.trans (Nat.zero_add _)⟩

/-! ## The two trees -/

theorem document?_remap_of_refersTo (tree : SymbolTree) (map : PathMap) (id : DocumentId) :
    (tree.remap map).tree.document? id =
      if tree.RefersTo id then (tree.document? id).map (Document.relocate map)
      else tree.document? id :=
  (document?_remap tree map id).trans (if_congr mem_references rfl rfl)

/-- The tree after remapping: the documents that line groups refer to have their paths resolved. -/
theorem remap_tree_eq (tree : SymbolTree) (map : PathMap) :
    (tree.remap map).tree =
      { tree with documents := tree.documents.mapIdx fun index document =>
        if tree.RefersTo ⟨index⟩ then document.relocate map else document } := by
  obtain ⟨hmethods, hentry⟩ := tree.remap_tree map
  have hdocuments : (tree.remap map).tree.documents = tree.documents.mapIdx fun index document =>
      if tree.RefersTo ⟨index⟩ then document.relocate map else document := by
    refine List.ext_getElem? fun index => ?_
    show (tree.remap map).tree.document? ⟨index⟩ = _
    rw [document?_remap_of_refersTo, List.getElem?_mapIdx]
    by_cases hrefers : tree.RefersTo ⟨index⟩
    · rw [if_pos hrefers]
      simp only [hrefers, if_true]
      rfl
    · rw [if_neg hrefers]
      simp only [hrefers, if_false]
      exact Option.map_id'.symm
  rw [← hmethods, ← hentry, ← hdocuments]

/-- The path at a position has changed if a line group refers to it and the map replaces it. -/
theorem renaming?_remap (tree : SymbolTree) (map : PathMap) (id : DocumentId) :
    tree.renaming? (tree.remap map).tree id =
      if tree.RefersTo id then replacement? map tree id else none := by
  rw [renaming?, path?, path?, document?_remap_of_refersTo, replacement?]
  by_cases hrefers : tree.RefersTo id
  · rw [if_pos hrefers, if_pos hrefers]
    cases tree.document? id with
    | none => rfl
    | some document =>
      simp only [Option.map_some, Option.bind_some, Document.relocate, eq_comm]
  · rw [if_neg hrefers, if_neg hrefers]
    cases tree.document? id <;> simp

/-- The positions whose paths are replaced are those whose paths differ in the two trees. -/
theorem filterMap_replacement? (tree : SymbolTree) (map : PathMap) :
    tree.references.filterMap (replacement? map tree) =
      tree.positions.filterMap (tree.renaming? (tree.remap map).tree) := by
  have hdangling : ∀ id ∈ tree.references, replacement? map tree id =
      if decide (id.index < tree.documents.length) = true then replacement? map tree id
      else none := by
    intro id _
    split
    · rfl
    · rename_i hindex
      rw [decide_eq_true_iff, Nat.not_lt] at hindex
      rw [replacement?, document?_eq_none_iff.2 hindex]
      rfl
  calc tree.references.filterMap (replacement? map tree)
      = (tree.references.filter fun id => id.index < tree.documents.length).filterMap
          (replacement? map tree) := by
        rw [List.filterMap_filter]
        exact List.filterMap_congr hdangling
    _ = (tree.positions.filter fun id => tree.RefersTo id).filterMap (replacement? map tree) := by
        rw [filter_references]
    _ = tree.positions.filterMap (tree.renaming? (tree.remap map).tree) := by
        rw [List.filterMap_filter]
        refine List.filterMap_congr fun id _ => ?_
        rw [renaming?_remap]
        simp only [decide_eq_true_iff]

/-- A position has a notice exactly if it has different paths in two trees of one length. -/
theorem isSome_renaming?_iff {before after : SymbolTree} {id : DocumentId}
    (hlength : after.documents.length = before.documents.length) (hid : id ∈ before.positions) :
    (before.renaming? after id).isSome = true ↔ after.path? id ≠ before.path? id := by
  have hindex := mem_positions.1 hid
  have hbefore : before.document? id = some _ := List.getElem?_eq_getElem hindex
  have hafter : after.document? id = some _ := List.getElem?_eq_getElem (hlength ▸ hindex)
  rw [renaming?, path?, path?, hbefore, hafter]
  simp only [Option.map_some, ne_eq, Option.some.injEq]
  split <;> simp_all [eq_comm]

/-! ## Positions without a document -/

theorem withoutDangling_refersTo_iff {tree : SymbolTree} {id : DocumentId} :
    tree.withoutDangling.RefersTo id ↔ tree.RefersTo id ∧ id.index < tree.documents.length := by
  constructor
  · rintro ⟨_, hkept, group, hgroup, rfl⟩
    obtain ⟨method, hmethod, rfl⟩ := List.mem_map.1 hkept
    obtain ⟨hgroup, hindex⟩ := List.mem_filter.1 hgroup
    exact ⟨⟨method, hmethod, group, hgroup, rfl⟩, of_decide_eq_true hindex⟩
  · rintro ⟨⟨method, hmethod, group, hgroup, rfl⟩, hindex⟩
    exact ⟨_, List.mem_map_of_mem hmethod, group,
      List.mem_filter.2 ⟨hgroup, decide_eq_true hindex⟩, rfl⟩

/-- Line groups without a document have no influence on the documents. -/
theorem documents_remap_withoutDangling (tree : SymbolTree) (map : PathMap) :
    (tree.withoutDangling.remap map).tree.documents = (tree.remap map).tree.documents := by
  rw [remap_tree_eq, remap_tree_eq]
  refine List.ext_getElem? fun index => ?_
  rw [List.getElem?_mapIdx, List.getElem?_mapIdx]
  refine Option.map_congr fun document hdocument => ?_
  have hindex : index < tree.documents.length := (List.getElem?_eq_some_iff.1 hdocument).1
  simp only [withoutDangling_refersTo_iff, hindex, and_true]

/-- Trees with the same documents differ in the same positions from others with the same
documents. -/
theorem renaming?_congr {before other after last : SymbolTree}
    (hbefore : before.documents = other.documents) (hafter : after.documents = last.documents) :
    before.renaming? after = other.renaming? last := by
  funext id
  rw [renaming?, renaming?, path?, path?, path?, path?, document?, document?, document?, document?,
    hbefore, hafter]

/-! ## Remapping as a whole -/

/-- Remapping is pointwise substitution, for every tree and every path map. A document has its path
resolved once if a line group refers to its position, and it is the same as before otherwise;
nothing else in the tree changes. What is counted are the positions whose path has changed, and each
of them has one notice, behind the warning of a chained map. Line groups that refer to positions
without a document have no influence on the documents, the count and the notices. What a path is
resolved to is the target of its entry, or the path itself if it has none. -/
theorem remap_substitutes_pointwise (tree : SymbolTree) (map : PathMap) :
    let remapped := tree.remap map
    let settled := tree.withoutDangling.remap map
    remapped.tree = { tree with
        documents := tree.documents.mapIdx fun index document =>
          if tree.RefersTo ⟨index⟩ then { document with path := map.resolve document.path }
          else document } ∧
      remapped.changed =
        tree.positions.countP (fun id => remapped.tree.path? id ≠ tree.path? id) ∧
      remapped.notices = (if map.isChained then [.chainedMap] else []) ++
        tree.positions.filterMap (tree.renaming? remapped.tree) ∧
      (settled.tree.documents = remapped.tree.documents ∧
        settled.changed = remapped.changed ∧ settled.notices = remapped.notices) ∧
      (∀ path target, (path, target) ∈ map.entries.entries → map.resolve path = target) ∧
      ∀ path ∉ map.entries.keys, map.resolve path = path := by
  intro remapped settled
  have hdocuments : settled.tree.documents = remapped.tree.documents :=
    documents_remap_withoutDangling tree map
  obtain ⟨hnotices, hchanged⟩ := remap_told tree map
  obtain ⟨hsettledNotices, hsettledChanged⟩ := remap_told tree.withoutDangling map
  rw [filterMap_replacement?] at hnotices hchanged hsettledNotices hsettledChanged
  have hrenaming : tree.withoutDangling.renaming? settled.tree = tree.renaming? remapped.tree :=
    renaming?_congr rfl hdocuments
  have hpositions : tree.withoutDangling.positions = tree.positions := rfl
  rw [hpositions] at hsettledNotices hsettledChanged
  refine ⟨remap_tree_eq tree map, ?_, hnotices, ⟨hdocuments, ?_, ?_⟩,
    fun _ _ => PathMap.resolve_of_mem, fun _ => PathMap.resolve_of_notMem⟩
  · rw [hchanged, List.length_filterMap_eq_countP]
    refine List.countP_congr fun id hid => ?_
    rw [isSome_renaming?_iff (length_documents_remap tree map) hid, decide_eq_true_iff]
  · exact hsettledChanged.trans (hrenaming ▸ hchanged.symm)
  · exact hsettledNotices.trans (hrenaming ▸ hnotices.symm)

/-- A map that swaps two paths, for a tree in which the last document is referred to by nothing: the
paths of the others are replaced once, and that of the last one is left alone. -/
theorem remap_substitutes_pointwise_swap :
    let tree : SymbolTree := { sharedDocuments with
      documents := sharedDocuments.documents ++ [.csharp "b.cs"] }
    let map := PathMap.ofList [("a.cs", "b.cs"), ("b.cs", "a.cs")]
    tree.documents.map (·.path) = ["a.cs", "b.cs", "a.cs", "b.cs"] ∧
      (tree.remap map).tree.documents.map (·.path) = ["b.cs", "a.cs", "b.cs", "b.cs"] ∧
      (tree.remap map).changed = 3 ∧ map.resolve "a.cs" = "b.cs" ∧
      map.resolve "c.cs" = "c.cs" := by
  intro tree map
  obtain ⟨htree, hchanged, -, -, hentry, hother⟩ := remap_substitutes_pointwise tree map
  refine ⟨rfl, ?_, ?_, hentry _ _ (by decide), hother _ (by decide)⟩
  · rw [htree]
    decide
  · rw [hchanged, htree]
    decide

end SymbolTree

end DebugSymbols
