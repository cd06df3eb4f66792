import DebugSymbols.Proofs.Emit.Gather
import DebugSymbols.Proofs.Sink.Sections

/-!
# The sections of the log of a tree

In the log of a tree each method has its section, and the batches of the section are those in which
its points are gathered: one batch for each path, under the handle of the path. So what a section
has in a path is what the method has there.
-/

namespace DebugSymbols

/-! ## The parts of a log -/

/-- Whether a call tells a scope. -/
def Entry.isOfScope : Entry → Bool
  | openScope _ | closeScope _ | defineLocalVariable _ | defineConstant _ _ _ => true
  | _ => false

theorem Entry.isQuiet_of_isOfScope {entry : Entry} (h : entry.isOfScope = true) :
    entry.IsQuiet := by
  cases entry <;> first | exact ⟨rfl, rfl, rfl⟩ | cases h

namespace Scope

mutual

theorem isOfScope_of_mem_entries (signature : Token) (extra : List Constant) :
    ∀ (scope : Scope), ∀ entry ∈ scope.entries signature extra, entry.isOfScope = true
  | ⟨span, locals, constants, children⟩ => by
    have hchildren := isOfScope_of_mem_entriesList signature children
    simp only [entries, List.forall_mem_cons, List.forall_mem_append, List.forall_mem_map]
    exact ⟨rfl, ⟨⟨fun _ _ => rfl, fun _ _ => rfl, fun _ _ => rfl⟩, hchildren⟩, rfl, by simp⟩

theorem isOfScope_of_mem_entriesList (signature : Token) :
    ∀ (scopes : List Scope), ∀ entry ∈ entriesList signature scopes, entry.isOfScope = true
  | [], entry, hentry => nomatch hentry
  | scope :: scopes, entry, hentry => by
    rcases List.mem_append.1 hentry with hscope | hscopes
    · exact isOfScope_of_mem_entries signature [] scope entry hscope
    · exact isOfScope_of_mem_entriesList signature scopes entry hscopes

end

end Scope

/-- The definitions of documents stand in no section. -/
theorem sections_definitions (known documents : List Document) :
    sections (definitions known documents) = ([], []) := by
  have hopened : ∀ entry ∈ definitions known documents, entry.opened? = none := by
    rw [definitions, List.forall_mem_map]
    exact fun _ _ => rfl
  have hbatch : ∀ entry ∈ definitions known documents, entry.batch? = none := by
    rw [definitions, List.forall_mem_map]
    exact fun _ _ => rfl
  rw [sections_of_opened?_eq_none hopened, List.filterMap_eq_nil_iff.2 hbatch]

/-! ## Methods -/

namespace Method

/-- The section of a method in the log of a tree. -/
def section_ (tree : SymbolTree) (documents : List Document) (method : Method) : Section :=
  ⟨method.token, Stretch.batches (handleOf documents) (tree.stretches method.lines)⟩

/-- Whether the documents in which a method has points are known. -/
def UsesKnown (tree : SymbolTree) (documents : List Document) (method : Method) : Prop :=
  ∀ stretch ∈ tree.stretches method.lines, stretch.path ∈ documents.map (·.path)

variable {tree : SymbolTree} {method : Method} {documents : List Document}

/-- The documents of a method are known once its fresh ones are. -/
theorem usesKnown_append_fresh (tree : SymbolTree) (known : List Document) (method : Method) :
    method.UsesKnown tree (known ++
      fresh known ((tree.stretches method.lines).map (·.document))) := by
  intro stretch hmem
  refine mem_map_path_append_fresh.2 (Or.inr ?_)
  rw [List.map_map]
  exact List.mem_map_of_mem hmem

/-- The documents of the methods of a tree are among those that its log defines. -/
theorem usesKnown_definedDocuments (hmem : method ∈ tree.methods) :
    method.UsesKnown tree tree.definedDocuments := by
  intro stretch hstretch
  have hused : stretch.document ∈ tree.usedDocuments tree.methods :=
    List.mem_flatMap.2 ⟨method, hmem, List.mem_map_of_mem hstretch⟩
  exact mem_map_path_fresh.2 ⟨List.mem_map_of_mem hused, List.not_mem_nil⟩

theorem UsesKnown.append (h : method.UsesKnown tree documents) (more : List Document) :
    method.UsesKnown tree (documents ++ more) := by
  intro stretch hmem
  rw [List.map_append]
  exact List.mem_append_left _ (h stretch hmem)

theorem UsesKnown.path_mem (h : method.UsesKnown tree documents) {path : String}
    (hpath : path ∈ Stretch.paths (tree.stretches method.lines)) :
    path ∈ documents.map (·.path) := by
  obtain ⟨stretch, hmem, rfl⟩ := Stretch.mem_paths.1 hpath
  exact h stretch hmem

/-- Documents that are defined later do not change a section. -/
theorem section_append (h : method.UsesKnown tree documents) (more : List Document) :
    method.section_ tree (documents ++ more) = method.section_ tree documents := by
  have hbatches : Stretch.batches (handleOf (documents ++ more)) (tree.stretches method.lines) =
      Stretch.batches (handleOf documents) (tree.stretches method.lines) :=
    List.map_congr_left fun path hpath => by rw [handleOf_append (h.path_mem hpath)]
  rw [section_, section_, hbatches]

/-- What a section has in a path is what the method has there. -/
theorem pointsIn_section (h : method.UsesKnown tree documents) (path : String) :
    (method.section_ tree documents).pointsIn documents path =
      Stretch.pointsIn (tree.stretches method.lines) path := by
  have hnodup := Stretch.nodup_paths (tree.stretches method.lines)
  have hfilter : (Stretch.paths (tree.stretches method.lines)).filter (fun other =>
      documents[(handleOf documents other).index]?.map (·.path) = some path) =
        (Stretch.paths (tree.stretches method.lines)).filter (fun other => other = path) := by
    refine List.filter_congr fun other hother => ?_
    have hother := getElem?_handleOf (h.path_mem hother)
    rw [List.getElem?_map] at hother
    rw [hother]
    simp
  rw [Section.pointsIn, section_, Stretch.batches, List.filter_map, List.flatMap_map]
  show ((Stretch.paths (tree.stretches method.lines)).filter (fun other =>
    documents[(handleOf documents other).index]?.map (·.path) = some path)).flatMap _ = _
  rw [hfilter]
  by_cases hmem : path ∈ Stretch.paths (tree.stretches method.lines)
  · rw [List.filter_eq, List.count_eq_one_of_mem hnodup hmem, List.replicate_one,
      List.flatMap_singleton]
    exact Batch.points_ofPoints _
  · have hnone : (Stretch.paths (tree.stretches method.lines)).filter (fun other =>
        other = path) = [] := by
      rw [List.filter_eq, List.count_eq_zero_of_not_mem hmem, List.replicate_zero]
    rw [hnone, List.flatMap_nil, Stretch.pointsIn_eq_nil hmem]

theorem isQuiet_of_mem_attributes (method : Method) :
    ∀ entry ∈ method.attributes, entry.IsQuiet := by
  have hquiet : ∀ record, (method.metadata record).IsQuiet := fun _ => ⟨rfl, rfl, rfl⟩
  rw [attributes, List.forall_mem_append]
  constructor <;> split <;> simp [hquiet]

/-- Behind the opening of a method neither a method is opened nor a document defined, and the
batches are those of its section. -/
theorem entries_eq_cons (tree : SymbolTree) (documents : List Document) (method : Method) :
    ∃ tail, method.entries documents (tree.stretches method.lines) =
        .openMethod method.token :: tail ∧
      (∀ entry ∈ tail, entry.definition? = none) ∧ (∀ entry ∈ tail, entry.opened? = none) ∧
        tail.filterMap Entry.batch? = (method.section_ tree documents).batches := by
  have hscope : ∀ entry ∈ method.scope.entries method.slotToken method.constants,
      entry.IsQuiet := by
    intro entry hentry
    exact Entry.isQuiet_of_isOfScope (Scope.isOfScope_of_mem_entries _ _ _ entry hentry)
  have hattributes := method.isQuiet_of_mem_attributes
  refine ⟨_, rfl, ?_, ?_, ?_⟩
  · simp only [List.forall_mem_append, List.forall_mem_map]
    exact ⟨⟨⟨fun _ _ => rfl, fun entry hentry => (hscope entry hentry).1⟩,
      fun entry hentry => (hattributes entry hentry).1⟩, by simp [Entry.definition?]⟩
  · simp only [List.forall_mem_append, List.forall_mem_map]
    exact ⟨⟨⟨fun _ _ => rfl, fun entry hentry => (hscope entry hentry).2.1⟩,
      fun entry hentry => (hattributes entry hentry).2.1⟩, by simp [Entry.opened?]⟩
  · have hscopeNil := List.filterMap_eq_nil_iff.2 fun entry hentry => (hscope entry hentry).2.2
    have hattributesNil := List.filterMap_eq_nil_iff.2 fun entry hentry =>
      (hattributes entry hentry).2.2
    rw [List.filterMap_append, List.filterMap_append, List.filterMap_append, hscopeNil,
      hattributesNil, List.filterMap_map, section_, Stretch.batches, ← List.filterMap_eq_map]
    simp [Entry.batch?, Function.comp_def]

/-- A method that is told to the end leaves its section. -/
theorem sections_entries (tree : SymbolTree) (documents : List Document) (method : Method) :
    sections (method.entries documents (tree.stretches method.lines)) =
      ([], [method.section_ tree documents]) := by
  obtain ⟨tail, hentries, -, hopened, hbatches⟩ := method.entries_eq_cons tree documents
  rw [hentries, sections, sections_of_opened?_eq_none hopened, hbatches]
  rfl

/-- A method that is told up to some point leaves nothing, or a section that begins as its own
one. -/
theorem sections_of_prefix_entries {front : List Entry}
    (h : front <+: method.entries documents (tree.stretches method.lines)) :
    (sections front).1 = [] ∧ ((sections front).2 = [] ∨
      ∃ batches, (sections front).2 = [⟨method.token, batches⟩] ∧
        batches <+: (method.section_ tree documents).batches) := by
  obtain ⟨tail, hentries, -, hopened, hbatches⟩ := method.entries_eq_cons tree documents
  rw [hentries] at h
  rw [← hbatches]
  exact sections_of_prefix h hopened

end Method

/-! ## Trees -/

namespace SymbolTree

/-- Methods that are told leave their sections. -/
theorem sections_methodEntries (tree : SymbolTree) (known : List Document)
    (methods : List Method) :
    sections (tree.methodEntries known methods) = ([], methods.map fun method =>
      method.section_ tree (known ++ fresh known (tree.usedDocuments methods))) := by
  induction methods generalizing known with
  | nil => rfl
  | cons method methods ih =>
    have hused : tree.usedDocuments (method :: methods) =
        (tree.stretches method.lines).map (·.document) ++ tree.usedDocuments methods := rfl
    have hmethod := method.sections_entries tree
      (known ++ fresh known ((tree.stretches method.lines).map (·.document)))
    have hrest := ih (known ++ fresh known ((tree.stretches method.lines).map (·.document)))
    have hsection := Method.section_append (Method.usesKnown_append_fresh tree known method)
    rw [methodEntries, sections_append (by rw [hrest]), sections_append (by rw [hmethod]),
      sections_definitions, hmethod, hrest, List.map_cons, hused, fresh_append,
      ← List.append_assoc, hsection]
    rfl

theorem isQuiet_of_mem_entryPointEntries (tree : SymbolTree) (options : Options) :
    ∀ entry ∈ tree.entryPointEntries options, entry.IsQuiet := by
  have hquiet : ∀ token, (Entry.setUserEntryPoint token).IsQuiet := fun _ => ⟨rfl, rfl, rfl⟩
  rw [entryPointEntries]
  split
  · split <;> simp [hquiet]
  · simp

/-- The sections of a log are those of the methods of the tree. -/
theorem sections_log (tree : SymbolTree) (options : Options) :
    sections (tree.log options) =
      ([], tree.methods.map fun method => method.section_ tree tree.definedDocuments) := by
  have hentry := sections_of_isQuiet (tree.isQuiet_of_mem_entryPointEntries options)
  have hmethods := tree.sections_methodEntries [] tree.methods
  rw [log, sections_append (by rw [hmethods]), hentry, hmethods]
  rfl

end SymbolTree

end DebugSymbols
