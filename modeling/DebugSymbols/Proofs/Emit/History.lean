import DebugSymbols.Proofs.Emit.Partial
import DebugSymbols.Proofs.Emit.Replay
import DebugSymbols.Proofs.Emit.Sections

/-!
# The history of an emitter

An emitter may be used again and again with one sink: for trees, for single methods, and also after
it has failed, be it that a tree was at fault or that the sink refused a call. Its table of
documents then still agrees with the sink. So over the whole history each path is defined once, and
the points of a method are in batches of different documents, which have the paths of their line
groups.
-/

namespace DebugSymbols

/-! ## Histories -/

/-- What an emitter can be asked for. -/
inductive Task
  | emit (tree : SymbolTree)
  | emitMethod (tree : SymbolTree) (method : Method)

/-- The methods that are to be told, with the trees they belong to. -/
def Task.methods : Task → List (SymbolTree × Method)
  | emit tree => tree.methods.map fun method => (tree, method)
  | emitMethod tree method => [(tree, method)]

namespace Emitter

variable {σ : Type}

/-- Does what the emitter is asked for. -/
def carryOut (emitter : Emitter σ) : Task → Attempt (Emission σ) Unit
  | .emit tree => emitter.emit tree
  | .emitMethod tree method => emitter.emitMethod tree method

/-- The emission after tasks that were tried one after the other, whatever became of each. -/
def history (emitter : Emitter σ) (tasks : List Task) (emission : Emission σ) : Emission σ :=
  tasks.foldl (fun emission task => ((emitter.carryOut task).outcome emission).2) emission

end Emitter

/-! ## Logs of histories -/

/-- A section that begins as that of a method in a tree, with all documents of the method known. -/
structure Section.Tells (documents : List Document) (origin : SymbolTree × Method)
    (section_ : Section) : Prop where
  token_eq : section_.token = origin.2.token
  usesKnown : origin.2.UsesKnown origin.1 documents
  batches_initial : section_.batches <+: (origin.2.section_ origin.1 documents).batches

/-- A log with its documents, left by trying to tell methods one after the other. -/
structure TellsSome (log : List Entry) (documents : List Document)
    (tried : List (SymbolTree × Method)) : Prop where
  nodup : (documents.map (·.path)).Nodup
  definitions_eq : log.filterMap Entry.definition? =
    documents.map fun document => (document.path, handleOf documents document.path)
  outside_eq : (sections log).1 = []
  sections_tell : ∃ told, told.Sublist tried ∧
    List.Forall₂ (Section.Tells documents) told (sections log).2

/-- Documents that are defined later do not change what a section tells. -/
theorem Section.Tells.append {documents : List Document} {origin : SymbolTree × Method}
    {section_ : Section} (h : section_.Tells documents origin) (more : List Document) :
    section_.Tells (documents ++ more) origin := by
  refine ⟨h.token_eq, h.usesKnown.append more, ?_⟩
  rw [Method.section_append h.usesKnown]
  exact h.batches_initial

namespace TellsSome

variable {log : List Entry} {documents : List Document} {tried : List (SymbolTree × Method)}

theorem nil : TellsSome [] [] [] :=
  ⟨List.nodup_nil, rfl, rfl, [], List.Sublist.refl _, .nil⟩

/-- Fresh documents are defined. -/
theorem append_definitions (h : TellsSome log documents tried) (used : List Document) :
    TellsSome (log ++ definitions documents used) (documents ++ fresh documents used) tried := by
  have happend : sections (log ++ definitions documents used) = sections log := by
    rw [sections_append (by rw [sections_definitions]), sections_definitions, List.append_nil]
  refine ⟨nodup_map_path_append_fresh _ _ h.nodup, ?_, ?_, ?_⟩
  · have hkept : ∀ document ∈ documents,
        (document.path, handleOf documents document.path) =
          (document.path, handleOf (documents ++ fresh documents used) document.path) := by
      intro document hmem
      rw [handleOf_append (List.mem_map_of_mem hmem)]
    have hnew : (definitions documents used).filterMap Entry.definition? =
        (fresh documents used).map fun document =>
          (document.path, handleOf (documents ++ fresh documents used) document.path) := by
      rw [definitions, List.filterMap_map, ← List.filterMap_eq_map]
      rfl
    rw [List.filterMap_append, h.definitions_eq, List.map_congr_left hkept, hnew, List.map_append]
  · rw [happend]
    exact h.outside_eq
  · rw [happend]
    obtain ⟨told, hsublist, htold⟩ := h.sections_tell
    exact ⟨told, hsublist, htold.imp fun _ _ htells => htells.append _⟩

/-- Calls that define no documents, with the sections in them. -/
theorem append (h : TellsSome log documents tried) {calls : List Entry}
    {told more : List (SymbolTree × Method)} (hsublist : told.Sublist more)
    (hdefinition : ∀ entry ∈ calls, entry.definition? = none) (houtside : (sections calls).1 = [])
    (htells : List.Forall₂ (Section.Tells documents) told (sections calls).2) :
    TellsSome (log ++ calls) documents (tried ++ more) := by
  have happend : sections (log ++ calls) =
      ((sections log).1, (sections log).2 ++ (sections calls).2) := sections_append houtside
  refine ⟨h.nodup, ?_, ?_, ?_⟩
  · rw [List.filterMap_append, List.filterMap_eq_nil_iff.2 hdefinition, List.append_nil,
      h.definitions_eq]
  · rw [happend]
    exact h.outside_eq
  · rw [happend]
    obtain ⟨before, hbefore, htold⟩ := h.sections_tell
    exact ⟨before ++ told, hbefore.append hsublist, List.rel_append htold htells⟩

/-- Quiet calls do not matter. -/
theorem append_quiet (h : TellsSome log documents tried) {calls : List Entry}
    (hcalls : ∀ entry ∈ calls, entry.IsQuiet) : TellsSome (log ++ calls) documents tried := by
  have hsections := sections_of_isQuiet hcalls
  have happend := h.append (List.Sublist.refl []) (fun entry hentry => (hcalls entry hentry).1)
    (by rw [hsections]) (by rw [hsections]; exact .nil)
  rwa [List.append_nil] at happend

/-- A method that is told in part leaves nothing or a section that tells it. -/
theorem append_method (h : TellsSome log documents tried) {tree : SymbolTree} {method : Method}
    {used : List Document} {calls : List Entry}
    (hpartly : method.PartlyTold tree documents used calls) :
    TellsSome (log ++ definitions documents used ++ calls) (documents ++ fresh documents used)
      (tried ++ [(tree, method)]) := by
  have hbefore := h.append_definitions used
  obtain ⟨tail, hentries, hdefinition, -⟩ :=
    method.entries_eq_cons tree (documents ++ fresh documents used)
  have hdefinition : ∀ entry ∈ calls, entry.definition? = none := by
    intro entry hentry
    have hmem := hpartly.told_initial.subset hentry
    rw [hentries] at hmem
    rcases List.mem_cons.1 hmem with rfl | htail
    · rfl
    · exact hdefinition entry htail
  obtain ⟨houtside, hnone | ⟨batches, hsection, hbatches⟩⟩ :=
    Method.sections_of_prefix_entries hpartly.told_initial
  · exact hbefore.append (List.nil_sublist _) hdefinition houtside (hnone ▸ .nil)
  · have hknown : method.UsesKnown tree (documents ++ fresh documents used) := by
      have hcalls : calls ≠ [] := by
        rintro rfl
        cases hsection
      rw [hpartly.used_eq hcalls]
      exact method.usesKnown_append_fresh tree documents
    refine hbefore.append (List.Sublist.refl _) hdefinition houtside ?_
    rw [hsection]
    exact .cons ⟨rfl, hknown, hbatches⟩ .nil

/-- More methods may have been tried than are told. -/
theorem mono (h : TellsSome log documents tried) {all : List (SymbolTree × Method)}
    (hsublist : tried.Sublist all) : TellsSome log documents all := by
  obtain ⟨told, htold, htells⟩ := h.sections_tell
  exact ⟨h.nodup, h.definitions_eq, h.outside_eq, told, htold.trans hsublist, htells⟩

end TellsSome

/-! ## Emissions -/

/-- An emission that has told some of the methods that were tried, and whose table of documents
agrees with the sink. -/
def Emission.HasTold (emission : Emission Recording) (tried : List (SymbolTree × Method)) : Prop :=
  ∃ log documents, emission.Recorded log documents ∧ TellsSome log documents tried

namespace Emitter

variable {options : Options} {names : Option Names} {emission last : Emission Recording}
  {tried : List (SymbolTree × Method)} {result : Except SymbolError Unit}

/-- Whatever becomes of a method, the table of documents agrees with the sink. -/
theorem hasTold_emitMethod {tree : SymbolTree} {method : Method}
    (h : ((Emitter.recording options names).emitMethod tree method).outcome emission =
      (result, last))
    (hbefore : emission.HasTold tried) : last.HasTold (tried ++ [(tree, method)]) := by
  obtain ⟨log, documents, hrecorded, htells⟩ := hbefore
  obtain ⟨used, calls, hpartly, hlast⟩ := recorded_emitMethod_partly h hrecorded
  exact ⟨_, _, hlast, htells.append_method hpartly⟩

theorem hasTold_emitMethods {tree : SymbolTree} {methods : List Method}
    (h : ((Emitter.recording options names).emitMethods tree methods).outcome emission =
      (result, last))
    (hbefore : emission.HasTold tried) :
    last.HasTold (tried ++ methods.map fun method => (tree, method)) := by
  induction methods generalizing emission tried with
  | nil =>
    cases h
    rwa [List.map_nil, List.append_nil]
  | cons method methods ih =>
    rw [emitMethods, Attempt.outcome_bind] at h
    rcases hmethod : ((Emitter.recording options names).emitMethod tree method).outcome emission
      with ⟨error | _, middle⟩
    · -- the methods behind the one that fails are not tried
      rw [hmethod] at h
      cases h
      obtain ⟨log, documents, hrecorded, htells⟩ := hasTold_emitMethod hmethod hbefore
      have hsublist := (List.Sublist.refl tried).append
        ((List.nil_sublist (methods.map fun method => (tree, method))).cons_cons (tree, method))
      exact ⟨log, documents, hrecorded, htells.mono hsublist⟩
    · rw [hmethod] at h
      have hlast := ih h (hasTold_emitMethod hmethod hbefore)
      rwa [List.append_assoc] at hlast

theorem hasTold_emit {tree : SymbolTree}
    (h : ((Emitter.recording options names).emit tree).outcome emission = (result, last))
    (hbefore : emission.HasTold tried) :
    last.HasTold (tried ++ tree.methods.map fun method => (tree, method)) := by
  have hentry : ∀ {result middle}, ((Emitter.recording options names).perform
      ((Emitter.recording options names).entryScript tree)).outcome emission = (result, middle) →
        middle.HasTold tried := by
    intro result middle hentry
    obtain ⟨log, documents, hrecorded, htells⟩ := hbefore
    obtain ⟨calls, hcalls, hmiddle⟩ := recorded_perform_told hentry hrecorded
    rw [told_entryScript] at hcalls
    refine ⟨_, _, hmiddle, htells.append_quiet fun entry hmem => ?_⟩
    exact tree.isQuiet_of_mem_entryPointEntries options entry (hcalls.subset hmem)
  rw [emit, Attempt.outcome_bind] at h
  rcases hscript : ((Emitter.recording options names).perform
    ((Emitter.recording options names).entryScript tree)).outcome emission with ⟨error | _, middle⟩
  · rw [hscript] at h
    cases h
    obtain ⟨log, documents, hrecorded, htells⟩ := hentry hscript
    exact ⟨log, documents, hrecorded, htells.mono (List.sublist_append_left _ _)⟩
  · rw [hscript] at h
    exact hasTold_emitMethods h (hentry hscript)

/-- Whatever becomes of the tasks of a history, the table of documents agrees with the sink. -/
theorem hasTold_history (options : Options) (names : Option Names) (tasks : List Task)
    (hbefore : emission.HasTold tried) :
    ((Emitter.recording options names).history tasks emission).HasTold
      (tried ++ tasks.flatMap Task.methods) := by
  induction tasks generalizing emission tried with
  | nil =>
    rw [List.flatMap_nil, List.append_nil]
    exact hbefore
  | cons task tasks ih =>
    rw [List.flatMap_cons, ← List.append_assoc]
    apply ih
    cases task with
    | emit tree => exact hasTold_emit rfl hbefore
    | emitMethod tree method => exact hasTold_emitMethod rfl hbefore

end Emitter

/-! ## Batches -/

/-- A line group that is passed on has points. -/
theorem SymbolTree.points_ne_nil_of_mem_stretches {tree : SymbolTree} {lines : List LineGroup}
    {stretch : Stretch} (hmem : stretch ∈ tree.stretches lines) : stretch.points ≠ [] := by
  induction lines with
  | nil => cases hmem
  | cons group lines ih =>
    rw [stretches] at hmem
    split at hmem
    · exact ih hmem
    · rename_i hempty
      split at hmem
      · rcases List.mem_cons.1 hmem with rfl | hrest
        · exact fun h => hempty (List.isEmpty_iff.2 h)
        · exact ih hrest
      · exact ih hmem

/-- A section with batches of different documents, which hold the points that a method has in the
paths of the documents. -/
structure Section.GathersByPath (documents : List Document) (origin : SymbolTree × Method)
    (section_ : Section) : Prop where
  token_eq : section_.token = origin.2.token
  nodup_handles : (section_.batches.map (·.1)).Nodup
  batch_eq : ∀ handle batch, (handle, batch) ∈ section_.batches → batch.points ≠ [] ∧
    ∃ path, documents[handle.index]?.map (·.path) = some path ∧
      batch = .ofPoints (origin.1.pointsAt origin.2.lines path)

theorem Section.Tells.gathersByPath {documents : List Document} {origin : SymbolTree × Method}
    {section_ : Section} (h : section_.Tells documents origin) :
    section_.GathersByPath documents origin := by
  obtain ⟨tree, method⟩ := origin
  obtain ⟨htoken, hknown, hinitial⟩ := h
  refine ⟨htoken, ?_, ?_⟩
  · have hhandles : ((method.section_ tree documents).batches.map (·.1)).Nodup := by
      rw [Method.section_, Stretch.batches, List.map_map]
      refine (Stretch.nodup_paths _).map_on fun path hpath other hother heq => ?_
      exact handleOf_inj (hknown.path_mem hpath) (hknown.path_mem hother) heq
    exact hhandles.sublist (hinitial.sublist.map _)
  · intro handle batch hbatch
    obtain ⟨path, hpath, heq⟩ := List.mem_map.1 (hinitial.subset hbatch)
    obtain ⟨rfl, rfl⟩ := Prod.mk.inj heq
    refine ⟨?_, path, ?_, by rw [SymbolTree.pointsIn_stretches]⟩
    · obtain ⟨stretch, hmem, rfl⟩ := Stretch.mem_paths.1 hpath
      rw [Batch.points_ofPoints, Stretch.pointsIn, ne_eq, List.flatMap_eq_nil_iff]
      intro hnone
      refine SymbolTree.points_ne_nil_of_mem_stretches hmem (hnone stretch ?_)
      exact List.mem_filter.2 ⟨hmem, decide_eq_true rfl⟩
    · rw [← List.getElem?_map]
      exact getElem?_handleOf (hknown.path_mem hpath)

/-- If all paths differ, handles count the documents. -/
theorem map_handleOf_eq_zipIdx {documents : List Document}
    (hnodup : (documents.map (·.path)).Nodup) :
    documents.map (fun document => (document.path, handleOf documents document.path)) =
      documents.zipIdx.map fun (document, index) => (document.path, ⟨index⟩) := by
  refine List.ext_getElem (by simp) fun index hindex _ => ?_
  have hlt : index < (documents.map (·.path)).length := by simpa using hindex
  have hhandle := hnodup.idxOf_getElem index hlt
  rw [List.getElem_map] at hhandle
  simp [handleOf, hhandle]

/-- The identity of documents over a history of an emitter with a recording, whatever becomes of its
tasks. The paths that are defined differ from each other, and handles count the definitions. All
batches are in the sections of methods that were tried, and they are not empty. In one section each
batch has another handle, and holds the points of the line groups of the method whose documents have
the path that is defined under the handle. -/
theorem Emitter.history_gathers_by_path (options : Options) (names : Option Names)
    (failOn : Option Operation) (tasks : List Task) :
    let last := (Emitter.recording options names).history tasks
      (Emission.start (Recording.start failOn))
    let log := last.sink.entries.toList
    let documents := last.sink.documents.toList
    ((log.filterMap Entry.definition?).map (·.1)).Nodup ∧
      log.filterMap Entry.definition? =
        documents.zipIdx.map (fun (document, index) => (document.path, ⟨index⟩)) ∧
      log.filterMap Entry.batch? = (sections log).2.flatMap (·.batches) ∧
      ∃ told, told.Sublist (tasks.flatMap Task.methods) ∧
        List.Forall₂ (Section.GathersByPath documents) told (sections log).2 := by
  intro last log documents
  have hstart : (Emission.start (Recording.start failOn)).HasTold [] :=
    ⟨[], [], Emission.recorded_start failOn, .nil⟩
  obtain ⟨_, _, hrecorded, htells⟩ := hasTold_history options names tasks hstart
  obtain ⟨hentries, hdocuments, -⟩ := hrecorded
  subst hentries hdocuments
  obtain ⟨hnodup, hdefinitions, houtside, told, hsublist, htold⟩ := htells
  refine ⟨?_, ?_, ?_, told, hsublist, htold.imp fun _ _ htells => htells.gathersByPath⟩
  · rw [hdefinitions, List.map_map]
    exact hnodup
  · rw [hdefinitions, map_handleOf_eq_zipIdx hnodup]
  · rw [filterMap_batch?, houtside, List.nil_append]

end DebugSymbols
