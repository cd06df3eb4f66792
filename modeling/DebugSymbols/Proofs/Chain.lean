import DebugSymbols.Proofs.Substitution

/-!
# Chained path maps

Applying a path map twice may differ from applying it once. It does so exactly if some path resolves
to another one that resolves further, and a map that is not chained has no such path: remapping with
it is idempotent. The converse fails. A map also counts as chained if a path is renamed to one that
has an entry of its own and keeps its path by it.
-/

namespace DebugSymbols

namespace PathMap

variable {map : PathMap}

/-! ## Paths that resolve further -/

/-- A path that does not resolve to itself has an entry. -/
theorem get?_of_resolve_ne {path : String} (h : map.resolve path ≠ path) :
    map.get? path = some (map.resolve path) := by
  rw [resolve] at h ⊢
  cases hget : map.get? path with
  | none => exact absurd (by rw [hget]; rfl) h
  | some target => rfl

/-- A map is chained exactly if a path is renamed to one that has an entry. -/
theorem isChained_eq_true_iff :
    map.isChained = true ↔
      ∃ path, map.resolve path ≠ path ∧ (map.get? (map.resolve path)).isSome = true := by
  rw [isChained, List.any_eq_true]
  constructor
  · rintro ⟨⟨path, target⟩, hmem, h⟩
    obtain ⟨hne, hsource⟩ := Bool.and_eq_true_iff.1 h
    have hresolve : map.resolve path = target := resolve_of_mem hmem
    refine ⟨path, ?_, hresolve.symm ▸ hsource⟩
    rw [hresolve]
    exact fun heq => bne_iff_ne.1 hne heq.symm
  · rintro ⟨path, hne, hsource⟩
    refine ⟨(path, map.resolve path), Dictionary.get?_eq_some_iff.1 (get?_of_resolve_ne hne), ?_⟩
    exact Bool.and_eq_true_iff.2 ⟨bne_iff_ne.2 hne.symm, hsource⟩

/-- Whether a path is renamed to one that has an entry and keeps its path by it. -/
def SettlesOnSource (map : PathMap) : Prop :=
  ∃ path, map.resolve path ≠ path ∧ map.get? (map.resolve path) = some (map.resolve path)

/-- A map is chained exactly if a path resolves to one that resolves further, or if it is renamed to
one that has an entry and stays. -/
theorem isChained_iff_or :
    map.isChained = true ↔
      (∃ path, map.resolve (map.resolve path) ≠ map.resolve path) ∨ map.SettlesOnSource := by
  rw [isChained_eq_true_iff]
  constructor
  · rintro ⟨path, hne, hsource⟩
    by_cases hsettled : map.resolve (map.resolve path) = map.resolve path
    · obtain ⟨target, htarget⟩ := Option.isSome_iff_exists.1 hsource
      have hself : target = map.resolve path := by
        rw [← hsettled, resolve, htarget]
        rfl
      exact Or.inr ⟨path, hne, hself ▸ htarget⟩
    · exact Or.inl ⟨path, hsettled⟩
  · rintro (⟨path, hfurther⟩ | ⟨path, hne, hsource⟩)
    · refine ⟨path, ?_, Option.isSome_iff_exists.2 ⟨_, get?_of_resolve_ne hfurther⟩⟩
      exact fun hself => hfurther (congrArg map.resolve hself)
    · exact ⟨path, hne, Option.isSome_iff_exists.2 ⟨_, hsource⟩⟩

/-- Under a map that is not chained no path resolves further. -/
theorem resolve_resolve_of_isChained_eq_false (h : map.isChained = false) (path : String) :
    map.resolve (map.resolve path) = map.resolve path := by
  by_contra hfurther
  rw [isChained_iff_or.2 (Or.inl ⟨path, hfurther⟩)] at h
  cases h

end PathMap

/-! ## Remapping twice -/

attribute [ext] Remapped

namespace SymbolTree

variable {map : PathMap}

theorem refersTo_remap (tree : SymbolTree) (map : PathMap) (id : DocumentId) :
    (tree.remap map).tree.RefersTo id ↔ tree.RefersTo id := by
  rw [RefersTo, RefersTo, (tree.remap_tree map).1]

/-- A tree whose referred documents have paths that stay is left as it is. -/
theorem remap_of_resolved {tree : SymbolTree}
    (h : ∀ id document, tree.RefersTo id → tree.document? id = some document →
      map.resolve document.path = document.path) :
    tree.remap map = ⟨tree, 0, if map.isChained then [.chainedMap] else []⟩ := by
  have hnone : tree.references.filterMap (replacement? map tree) = [] := by
    refine List.filterMap_eq_nil_iff.2 fun id hid => ?_
    rw [replacement?]
    cases hdocument : tree.document? id with
    | none => rfl
    | some document =>
      exact if_pos (h id document (refersTo_iff_mem_references.2 hid) hdocument)
  obtain ⟨hnotices, hchanged⟩ := remap_told tree map
  rw [hnone] at hnotices hchanged
  refine Remapped.ext ?_ hchanged (hnotices.trans (List.append_nil _))
  have hdocuments : (tree.documents.mapIdx fun index document =>
      if tree.RefersTo ⟨index⟩ then document.relocate map else document) = tree.documents := by
    refine List.ext_getElem? fun index => ?_
    rw [List.getElem?_mapIdx]
    cases hdocument : tree.documents[index]? with
    | none => rfl
    | some document =>
      rw [Option.map_some]
      split
      · rename_i hrefers
        rw [Document.relocate, h ⟨index⟩ document hrefers hdocument]
      · rfl
  rw [remap_tree_eq, hdocuments]

/-- If no path resolves further, remapping once more does nothing. -/
theorem remap_remap_of_resolve_resolve
    (h : ∀ path, map.resolve (map.resolve path) = map.resolve path) (tree : SymbolTree) :
    (tree.remap map).tree.remap map =
      ⟨(tree.remap map).tree, 0, if map.isChained then [.chainedMap] else []⟩ := by
  refine remap_of_resolved fun id document hrefers hdocument => ?_
  rw [document?_remap_of_refersTo, if_pos ((refersTo_remap tree map id).1 hrefers)] at hdocument
  obtain ⟨original, -, rfl⟩ := Option.map_eq_some_iff.1 hdocument
  exact h original.path

/-- A tree with one document, to which a line group without points refers. -/
def singleReference (path : String) : SymbolTree where
  documents := [.csharp path]
  methods := [⟨⟨0x06000001⟩, ⟨0⟩, [⟨⟨0⟩, []⟩], .plain ⟨0, 0⟩, [], "", []⟩]
  entryPoint := none

/-- The path of the document that is referred to is resolved. -/
theorem path?_remap_of_refersTo {tree : SymbolTree} {id : DocumentId} (map : PathMap)
    (hrefers : tree.RefersTo id) :
    (tree.remap map).tree.path? id = (tree.path? id).map map.resolve := by
  rw [path?, path?, document?_remap_of_refersTo, if_pos hrefers, Option.map_map, Option.map_map]
  rfl

/-- A path resolves further exactly if there is a tree that changes when it is remapped again. -/
theorem exists_resolve_resolve_ne_iff :
    (∃ path, map.resolve (map.resolve path) ≠ map.resolve path) ↔
      ∃ tree : SymbolTree, ((tree.remap map).tree.remap map).tree ≠ (tree.remap map).tree := by
  constructor
  · rintro ⟨path, hfurther⟩
    refine ⟨singleReference path, fun hsame => hfurther ?_⟩
    have hrefers : (singleReference path).RefersTo ⟨0⟩ :=
      ⟨_, List.mem_cons_self, _, List.mem_cons_self, rfl⟩
    have honce := path?_remap_of_refersTo map hrefers
    have htwice := path?_remap_of_refersTo map ((refersTo_remap _ map _).2 hrefers)
    rw [hsame, honce] at htwice
    exact (Option.some.inj htwice).symm
  · rintro ⟨tree, hdiffers⟩
    by_contra hnone
    refine hdiffers ?_
    rw [remap_remap_of_resolve_resolve (by simpa using hnone)]

/-! ## Chained maps -/

/-- Remapping with a map that is not chained is idempotent: the first time gives no warning, and the
second time changes no path, counts nothing and tells nothing. -/
theorem remap_idempotent_of_unchained (h : map.isChained = false) (tree : SymbolTree) :
    .chainedMap ∉ (tree.remap map).notices ∧
      (tree.remap map).tree.remap map = ⟨(tree.remap map).tree, 0, []⟩ := by
  constructor
  · rw [(remap_told tree map).1, h, List.mem_append, List.mem_filterMap]
    rintro (hwarning | ⟨id, -, hreplacement⟩)
    · cases hwarning
    · obtain ⟨document, -, hnotice⟩ := Option.bind_eq_some_iff.1 hreplacement
      split at hnotice <;> cases hnotice
  · rw [remap_remap_of_resolve_resolve (PathMap.resolve_resolve_of_isChained_eq_false h), h]
    rfl

/-- A map that gives one document the path that others have already, and one path itself: the first
time changes a path, and the second time does nothing. -/
theorem remap_idempotent_of_unchained_sharedDocuments :
    let map := PathMap.ofList [("b.cs", "a.cs"), ("c.cs", "c.cs")]
    map.isChained = false ∧ (sharedDocuments.remap map).changed = 1 ∧
      (sharedDocuments.remap map).tree.remap map = ⟨(sharedDocuments.remap map).tree, 0, []⟩ := by
  intro map
  have hunchained : map.isChained = false := by decide
  exact ⟨hunchained, by decide, (remap_idempotent_of_unchained hunchained sharedDocuments).2⟩

end SymbolTree

namespace PathMap

/-- What a chained map is. Every map with a path that resolves further is chained, and these are the
maps for which remapping a tree twice can differ from remapping it once. The other maps are chained
exactly if a path is renamed to one that has an entry and keeps its path by it; these are chained
although remapping with them is idempotent. -/
theorem isChained_iff_unless_settled (map : PathMap) :
    (map.isChained = true ↔
        (∃ path, map.resolve (map.resolve path) ≠ map.resolve path) ∨ map.SettlesOnSource) ∧
      ((∃ path, map.resolve (map.resolve path) ≠ map.resolve path) ↔
        ∃ tree : SymbolTree, ((tree.remap map).tree.remap map).tree ≠ (tree.remap map).tree) ∧
      ((map.isChained = true ↔ ∃ path, map.resolve (map.resolve path) ≠ map.resolve path) ↔
        ¬ map.SettlesOnSource ∨ ∃ path, map.resolve (map.resolve path) ≠ map.resolve path) := by
  refine ⟨isChained_iff_or, SymbolTree.exists_resolve_resolve_ne_iff, ?_⟩
  rw [isChained_iff_or]
  by_cases hfurther : ∃ path, map.resolve (map.resolve path) ≠ map.resolve path
  · simp only [hfurther, true_or, or_true]
  · simp only [hfurther, false_or, or_false, iff_false]

/-- A path is renamed to one that keeps its path by an entry of its own. The map is chained, but no
path resolves further. -/
theorem isChained_though_idempotent :
    ¬ ((ofList [("a", "a"), ("b", "a")]).isChained = true ↔
      ∃ path, (ofList [("a", "a"), ("b", "a")]).resolve
          ((ofList [("a", "a"), ("b", "a")]).resolve path) ≠
        (ofList [("a", "a"), ("b", "a")]).resolve path) := by
  have hchained : (ofList [("a", "a"), ("b", "a")]).isChained = true := by decide
  intro h
  obtain ⟨path, hfurther⟩ := h.1 hchained
  have hget : ∀ path, (ofList [("a", "a"), ("b", "a")]).get? path =
      if "b" = path then some "a" else if "a" = path then some "a" else none := by
    intro path
    exact (Dictionary.get?_insert _ _ _ _).trans
      (congrArg _ (Dictionary.get?_insert _ _ _ _))
  apply hfurther
  rw [resolve, resolve, hget, hget]
  by_cases hb : "b" = path
  · subst hb
    decide
  · by_cases ha : "a" = path
    · subst ha
      decide
    · simp [ha, hb]

end PathMap

end DebugSymbols
