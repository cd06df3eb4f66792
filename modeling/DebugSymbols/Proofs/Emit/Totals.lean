import Mathlib.Data.List.Dedup
import DebugSymbols.Proofs.Emit.Counts
import DebugSymbols.Proofs.Emit.Lossless

/-!
# The totals of a tree

What an emitter has counted when a tree was told to the end can be read off the tree: methods,
sequence points, scopes with what is in them, attributes, and different paths. The summary of a
relocation has the totals of the tree with its paths replaced, next to the number of documents whose
path was replaced.
-/

namespace DebugSymbols

/-! ## Totals -/

namespace Scope

mutual

/-- A scope and all scopes within it, from the outside in. -/
def all : Scope → List Scope
  | ⟨span, locals, constants, children⟩ =>
    ⟨span, locals, constants, children⟩ :: allList children

/-- Scopes and all scopes within them. -/
def allList : List Scope → List Scope
  | [] => []
  | scope :: rest => scope.all ++ allList rest

end

end Scope

namespace Method

/-- How much there is to tell about a method of a tree. The documents are left out, as methods share
them. -/
def totals (tree : SymbolTree) (method : Method) : EmitStats where
  methods := 1
  documentsRegistered := 0
  sequencePoints := method.pointCount
  batches := ((tree.stretches method.lines).map (·.path)).dedup.length
  scopes := method.scope.count
  locals := (method.scope.all.flatMap (·.locals)).length
  constants := (method.scope.all.flatMap (·.constants)).length + method.constants.length
  attributes := (if method.iteratorClass.isEmpty then 0 else 1) +
    if method.iteratorScopes.isEmpty then 0 else 1

end Method

/-- How much there is to tell about a tree: that of its methods, and a document for each path in
which there are points. -/
def SymbolTree.totals (tree : SymbolTree) : EmitStats :=
  { tree.methods.foldr (fun method totals => method.totals tree + totals) .zero with
    documentsRegistered := ((tree.usedDocuments tree.methods).map (·.path)).dedup.length }

/-! ## Scopes -/

namespace Scope

theorem all_eq (scope : Scope) : scope.all = scope :: allList scope.children := by
  obtain ⟨span, locals, constants, children⟩ := scope
  rw [all]

theorem allList_append (front back : List Scope) :
    allList (front ++ back) = allList front ++ allList back := by
  induction front with
  | nil => rfl
  | cons scope front ih => rw [List.cons_append, allList, allList, ih, List.append_assoc]

/-- Counting visits the scopes still to be visited and everything within them. -/
theorem countFrom_eq (count : Nat) (pending : List Scope) :
    countFrom count pending = count + (allList pending).length := by
  fun_induction countFrom count pending with
  | case1 count => rfl
  | case2 count scope rest ih =>
    rw [ih, allList_append, allList, all_eq, List.length_append, List.length_append,
      List.length_cons]
    omega

theorem count_eq (scope : Scope) : scope.count = scope.all.length := by
  rw [count, countFrom_eq, allList, allList, List.append_nil, Nat.zero_add]

end Scope

namespace EmitStats

open Scope (all allList)

theorem add_comm (a b : EmitStats) : a + b = b + a := by
  simp only [add_def, Nat.add_comm]

/-- Calls that each count the same. -/
theorem ofLog_map {α : Type} {entry : α → Entry} (total : Nat → EmitStats)
    (hnone : total 0 = .zero) (hnext : ∀ item count, total count + ofLog [entry item] =
      total (count + 1)) (items : List α) : ofLog (items.map entry) = total items.length := by
  induction items with
  | nil => exact hnone.symm
  | cons item items ih =>
    have hcons := ofLog_append [entry item] (items.map entry)
    rw [List.map_cons, List.length_cons, ← hnext item, ← ih, add_comm]
    exact hcons

theorem ofLog_locals (signature : Token) (span : Span) (locals : List Variable) :
    ofLog (locals.map (Variable.entry signature span)) = ⟨0, 0, 0, 0, 0, locals.length, 0, 0⟩ :=
  ofLog_map (fun count => ⟨0, 0, 0, 0, 0, count, 0, 0⟩) rfl (fun _ _ => rfl) locals

theorem ofLog_constants (constants : List Constant) :
    ofLog (constants.map Constant.entry) = ⟨0, 0, 0, 0, 0, 0, constants.length, 0⟩ :=
  ofLog_map (fun count => ⟨0, 0, 0, 0, 0, 0, count, 0⟩) rfl (fun _ _ => rfl) constants

theorem ofLog_definitions (known documents : List Document) :
    ofLog (definitions known documents) = ⟨0, (fresh known documents).length, 0, 0, 0, 0, 0, 0⟩ :=
  ofLog_map (fun count => ⟨0, count, 0, 0, 0, 0, 0, 0⟩) rfl (fun _ _ => rfl) _

mutual

/-- The calls of a scope count what is in it and in the scopes within. -/
theorem ofLog_entries (signature : Token) (extra : List Constant) :
    ∀ scope : Scope, ofLog (scope.entries signature extra) =
      ⟨0, 0, 0, 0, scope.all.length, (scope.all.flatMap (·.locals)).length,
        (scope.all.flatMap (·.constants)).length + extra.length, 0⟩
  | ⟨span, locals, constants, children⟩ => by
    have hopen : ofLog [.openScope span.offset] = .zero := rfl
    have hclose : ofLog [.closeScope (span.offset + span.length)] = ⟨0, 0, 0, 0, 1, 0, 0, 0⟩ := rfl
    rw [Scope.entries, ← List.singleton_append, ofLog_append, ofLog_append, ofLog_append,
      ofLog_append, ofLog_locals, ofLog_constants, ofLog_entriesList signature children, hopen,
      hclose, Scope.all]
    simp only [add_def, zero, List.length_cons, List.flatMap_cons, List.length_append, mk.injEq,
      true_and, and_true]
    omega

theorem ofLog_entriesList (signature : Token) :
    ∀ scopes : List Scope, ofLog (Scope.entriesList signature scopes) =
      ⟨0, 0, 0, 0, (allList scopes).length, ((allList scopes).flatMap (·.locals)).length,
        ((allList scopes).flatMap (·.constants)).length, 0⟩
  | [] => rfl
  | scope :: rest => by
    rw [Scope.entriesList, ofLog_append, ofLog_entries signature [] scope,
      ofLog_entriesList signature rest, Scope.allList]
    simp [add_def]

end

end EmitStats

/-! ## Methods -/

/-- A list of documents has as many fresh ones as it has different paths. -/
theorem length_fresh_nil (documents : List Document) :
    (fresh [] documents).length = ((documents.map (·.path)).dedup).length := by
  have hnodup := nodup_map_path_append_fresh [] documents List.nodup_nil
  rw [List.nil_append] at hnodup
  have hperm : List.Perm ((fresh [] documents).map (·.path)) (documents.map (·.path)).dedup := by
    refine (List.perm_ext_iff_of_nodup hnodup (List.nodup_dedup _)).2 fun path => ?_
    rw [mem_map_path_fresh, List.mem_dedup]
    simp
  rw [← hperm.length_eq, List.length_map]

/-- To gather points adds them to the batches, wherever they are put. -/
theorem length_gather (handle : DocumentHandle) (points : List SequencePoint)
    (batches : List (DocumentHandle × Batch)) :
    ((Emitter.gather handle points batches).flatMap (·.2.offsets)).length =
      (batches.flatMap (·.2.offsets)).length + points.length := by
  induction batches with
  | nil => simp [Emitter.gather, Batch.ofPoints, Batch.extend, Batch.empty]
  | cons first batches ih =>
    obtain ⟨other, batch⟩ := first
    rw [Emitter.gather]
    split
    · simp only [List.flatMap_cons, List.length_append, Batch.extend, List.length_map]
      omega
    · simp only [List.flatMap_cons, List.length_append, ih]
      omega

namespace Stretch

theorem flatMap_points_batches (handle : String → DocumentHandle) (stretches : List Stretch) :
    ((batches handle stretches).flatMap (·.2.points)) =
      (paths stretches).flatMap (pointsIn stretches) := by
  rw [batches, List.flatMap_map]
  simp only [Batch.points_ofPoints]

theorem flatMap_offsets_batches (handle : String → DocumentHandle) (stretches : List Stretch) :
    ((batches handle stretches).flatMap (·.2.offsets)) =
      ((paths stretches).flatMap (pointsIn stretches)).map (·.offset) := by
  rw [batches, List.flatMap_map, List.map_flatMap]
  rfl

/-- Whatever they are gathered in, stretches keep all their points. -/
theorem length_foldl_gather (handle : String → DocumentHandle) (stretches : List Stretch)
    (batches : List (DocumentHandle × Batch)) :
    ((stretches.foldl (fun batches stretch => Emitter.gather (handle stretch.path) stretch.points
        batches) batches).flatMap (·.2.offsets)).length =
      (batches.flatMap (·.2.offsets)).length +
        (stretches.flatMap (·.points)).length := by
  induction stretches generalizing batches with
  | nil => rfl
  | cons stretch stretches ih =>
    rw [List.foldl_cons, ih, length_gather, List.flatMap_cons, List.length_append, Nat.add_assoc]

/-- The paths of stretches have all their points. -/
theorem length_flatMap_pointsIn (stretches : List Stretch) :
    ((paths stretches).flatMap (pointsIn stretches)).length =
      (stretches.flatMap (·.points)).length := by
  have hknown : ∀ stretch ∈ stretches,
      stretch.path ∈ (stretches.map (·.document)).map (·.path) := by
    intro stretch hmem
    rw [List.map_map]
    exact List.mem_map_of_mem hmem
  -- the points are counted in the batches that they are gathered in
  have hgather := foldl_gather_batches [] stretches fun a ha b hb =>
    handleOf_inj (hknown a ha) (hknown b hb)
  have hlength := length_foldl_gather (handleOf (stretches.map (·.document))) stretches []
  rw [← List.length_map (f := (·.offset)), ← flatMap_offsets_batches, ← List.nil_append stretches,
    ← hgather]
  exact hlength.trans (Nat.zero_add _)

end Stretch

/-- Whether all points of a method are in documents of a tree. -/
def Method.HasDocuments (tree : SymbolTree) (method : Method) : Prop :=
  ∀ group ∈ method.lines, group.isEmpty = false →
    ∃ document, tree.document? group.document = some document

/-- Line groups whose documents are found lose no points. -/
theorem SymbolTree.flatMap_points_stretches {tree : SymbolTree} {lines : List LineGroup}
    (h : ∀ group ∈ lines, group.isEmpty = false →
      ∃ document, tree.document? group.document = some document) :
    (tree.stretches lines).flatMap (·.points) = lines.flatMap (·.points) := by
  induction lines with
  | nil => rfl
  | cons group lines ih =>
    obtain ⟨hgroup, hlines⟩ := List.forall_mem_cons.1 h
    rw [stretches, List.flatMap_cons]
    split
    · rename_i hempty
      rw [ih hlines, List.isEmpty_iff.1 hempty, List.nil_append]
    · rename_i hpoints
      obtain ⟨document, hdocument⟩ := hgroup (Bool.of_not_eq_true hpoints)
      rw [hdocument]
      exact congrArg _ (ih hlines)

namespace EmitStats

theorem ofLog_batches (batches : List (DocumentHandle × Batch)) :
    ofLog (batches.map fun (handle, batch) => .defineSequencePoints handle batch) =
      ⟨0, 0, (batches.flatMap (·.2.points)).length, batches.length, 0, 0, 0,
        0⟩ := by
  induction batches with
  | nil => rfl
  | cons first batches ih =>
    obtain ⟨handle, batch⟩ := first
    have hfirst : ofLog [.defineSequencePoints handle batch] =
        ⟨0, 0, batch.points.length, 1, 0, 0, 0, 0⟩ :=
      congrArg (fun points => EmitStats.mk 0 0 (List.length points) 1 0 0 0 0)
        (List.append_nil batch.points)
    rw [List.map_cons, ← List.singleton_append, ofLog_append, ih, hfirst]
    simp [add_def, Nat.add_comm 1]

theorem ofLog_attributes (method : Method) :
    ofLog method.attributes = ⟨0, 0, 0, 0, 0, 0, 0,
      (if method.iteratorClass.isEmpty then 0 else 1) +
        if method.iteratorScopes.isEmpty then 0 else 1⟩ := by
  rw [Method.attributes, ofLog_append]
  split <;> split <;> rfl

/-- The calls of a method count its totals. -/
theorem ofLog_method {tree : SymbolTree} {method : Method} (h : method.HasDocuments tree)
    (documents : List Document) :
    ofLog (method.entries documents (tree.stretches method.lines)) = method.totals tree := by
  have hopen : ofLog [.openMethod method.token] = .zero := rfl
  have hclose : ofLog [.closeMethod] = ⟨1, 0, 0, 0, 0, 0, 0, 0⟩ := rfl
  have hlines : (Stretch.paths (tree.stretches method.lines)).map (fun path =>
        Entry.defineSequencePoints (handleOf documents path)
          (.ofPoints (Stretch.pointsIn (tree.stretches method.lines) path))) =
      (Stretch.batches (handleOf documents) (tree.stretches method.lines)).map
        fun (handle, batch) => .defineSequencePoints handle batch := by
    rw [Stretch.batches, List.map_map]
    rfl
  have hpoints : ((tree.stretches method.lines).flatMap (·.points)).length = method.pointCount := by
    rw [SymbolTree.flatMap_points_stretches h, Method.pointCount]
  have hpaths : (Stretch.batches (handleOf documents) (tree.stretches method.lines)).length =
      ((tree.stretches method.lines).map (·.path)).dedup.length := by
    rw [Stretch.batches, List.length_map, Stretch.paths, List.length_map, length_fresh_nil,
      List.map_map]
    rfl
  rw [Method.entries, hlines, ← List.singleton_append, ofLog_append, ofLog_append, ofLog_append,
    ofLog_append, ofLog_batches, Stretch.flatMap_points_batches, Stretch.length_flatMap_pointsIn,
    hpoints, hpaths, ofLog_entries, ofLog_attributes, hopen, hclose, ← Scope.count_eq]
  simp [add_def, zero, Method.totals]

end EmitStats

/-! ## Trees -/

/-- The calls of methods count their totals, and the documents that are fresh. -/
theorem EmitStats.ofLog_methodEntries {tree : SymbolTree} (known : List Document)
    {methods : List Method} (h : ∀ method ∈ methods, method.HasDocuments tree) :
    ofLog (tree.methodEntries known methods) =
      { methods.foldr (fun method totals => method.totals tree + totals) .zero with
        documentsRegistered := (fresh known (tree.usedDocuments methods)).length } := by
  induction methods generalizing known with
  | nil => rfl
  | cons method methods ih =>
    obtain ⟨hmethod, hmethods⟩ := List.forall_mem_cons.1 h
    have hused : tree.usedDocuments (method :: methods) =
        (tree.stretches method.lines).map (·.document) ++ tree.usedDocuments methods := rfl
    rw [SymbolTree.methodEntries, ofLog_append, ofLog_append, ofLog_definitions,
      ofLog_method hmethod, ih _ hmethods, hused, fresh_append]
    simp [add_def, Method.totals]

/-- The log of a tree counts the totals of the tree. -/
theorem SymbolTree.ofLog_log {tree : SymbolTree} (options : Options)
    (h : ∀ method ∈ tree.methods, method.HasDocuments tree) :
    EmitStats.ofLog (tree.log options) = tree.totals := by
  have hentry : EmitStats.ofLog (tree.entryPointEntries options) = .zero := by
    rw [entryPointEntries]
    split
    · split <;> rfl
    · rfl
  rw [log, EmitStats.ofLog_append, hentry, EmitStats.ofLog_methodEntries [] h, length_fresh_nil]
  simp [EmitStats.add_def, EmitStats.zero, totals]

namespace Emitter

variable {options : Options} {names : Option Names} {tree : SymbolTree}
  {emission last : Emission Recording}

section AnySink

variable {σ : Type} {emitter : Emitter σ} {emission last : Emission σ}

theorem hasDocuments_of_gatherLines {method : Token} {lines : List LineGroup}
    {batches result : List (DocumentHandle × Batch)}
    (h : (emitter.gatherLines tree method lines batches).outcome emission = (.ok result, last)) :
    ∀ group ∈ lines, group.isEmpty = false →
      ∃ document, tree.document? group.document = some document := by
  induction lines generalizing batches emission with
  | nil => exact fun _ hmem => nomatch hmem
  | cons group lines ih =>
    rw [gatherLines] at h
    rw [List.forall_mem_cons]
    split at h
    · rename_i hempty
      refine ⟨fun hpoints => ?_, ih h⟩
      rw [hempty] at hpoints
      cases hpoints
    · obtain ⟨document, hdocument, h⟩ := Attempt.outcome_lift_bind_eq_ok_iff.1 h
      obtain ⟨_, _, -, h⟩ := Attempt.outcome_bind_eq_ok_iff.1 h
      exact ⟨fun _ => ⟨document, document?_of_documentOf hdocument⟩, ih h⟩

/-- All points of a method that was told are in documents of the tree. -/
theorem hasDocuments_of_emitMethod {method : Method}
    (h : (emitter.emitMethod tree method).outcome emission = (.ok (), last)) :
    method.HasDocuments tree := by
  obtain ⟨_, -, h⟩ := Attempt.outcome_lift_bind_eq_ok_iff.1 h
  obtain ⟨_, _, hgather, -⟩ := Attempt.outcome_bind_eq_ok_iff.1 h
  exact hasDocuments_of_gatherLines hgather

theorem hasDocuments_of_emitMethods {methods : List Method}
    (h : (emitter.emitMethods tree methods).outcome emission = (.ok (), last)) :
    ∀ method ∈ methods, method.HasDocuments tree := by
  induction methods generalizing emission with
  | nil => exact fun _ hmem => nomatch hmem
  | cons method methods ih =>
    obtain ⟨_, _, hmethod, h⟩ := Attempt.outcome_bind_eq_ok_iff.1 h
    exact List.forall_mem_cons.2 ⟨hasDocuments_of_emitMethod hmethod, ih h⟩

end AnySink

/-- A tree that is told to a new recording leaves a log that counts its totals. -/
theorem ofLog_of_emit {failOn : Option Operation}
    (h : ((Emitter.recording options names).emit tree).outcome
      (Emission.start (Recording.start failOn)) = (.ok (), last)) :
    EmitStats.ofLog last.sink.entries.toList = tree.totals := by
  obtain ⟨hrecorded, -⟩ := recorded_emit h
  obtain ⟨_, _, -, hmethods⟩ := Attempt.outcome_bind_eq_ok_iff.1 h
  rw [hrecorded.entries_eq, SymbolTree.ofLog_log options (hasDocuments_of_emitMethods hmethods)]

/-- The summary of a relocation is that of what the emission has counted. -/
theorem summary_of_relocate {σ : Type} {emitter : Emitter σ} {map : PathMap} {state : σ}
    {summary : Summary} (h : (emitter.relocate tree map state).result = .ok summary) :
    ∃ emission, (emitter.emit (tree.remap map).tree).outcome (Emission.start state) =
        (.ok (), emission) ∧
      (emitter.sink.issue .close).outcome emission.sink =
        (.ok (), (emitter.relocate tree map state).sink) ∧
      summary = emission.stats.summary (tree.remap map).changed := by
  obtain ⟨emission, hemit, hclose⟩ := relocate_eq_ok h
  refine ⟨emission, hemit, hclose, ?_⟩
  generalize (emitter.relocate tree map state).sink = closed at hclose
  rw [relocate, hemit] at h
  dsimp only at h
  rw [Sink.finish, hclose] at h
  cases h
  rfl

/-- The counters of an emitter never drift from the log of the recording. After any tasks, whatever
became of them, they are those of the log. When a tree was told to a new recording to the end, they
are the totals of the tree. And the summary of a relocation has the totals of the tree whose paths
were replaced, which are those of the log, with the number of documents whose path was replaced. -/
theorem stats_never_drift (options : Options) (names : Option Names)
    (failOn : Option Operation) :
    let emitter := Emitter.recording options names
    let start := Emission.start (Recording.start failOn)
    (∀ tasks, let last := emitter.history tasks start
      last.stats = .ofLog last.sink.entries.toList) ∧
    (∀ tree last, (emitter.emit tree).outcome start = (.ok (), last) →
      last.stats = tree.totals) ∧
    ∀ tree map summary, let outcome := emitter.relocate tree map (Recording.start failOn)
      outcome.result = .ok summary →
        summary = (tree.remap map).tree.totals.summary (tree.remap map).changed ∧
          EmitStats.ofLog outcome.sink.entries.toList = (tree.remap map).tree.totals := by
  intro emitter start
  have hcounted : ∀ tree last, (emitter.emit tree).outcome start = (.ok (), last) →
      last.stats = tree.totals := by
    intro tree last h
    have hlast := counted_carryOut options names (.emit tree) start (Emission.counted_start failOn)
    have hreached : ((emitter.carryOut (.emit tree)).outcome start).2 = last := congrArg Prod.snd h
    rw [hreached] at hlast
    exact hlast.trans (ofLog_of_emit h)
  refine ⟨fun tasks => counted_history options names tasks (Emission.counted_start failOn),
    hcounted, ?_⟩
  intro tree map summary outcome h
  obtain ⟨emission, hemit, hclose, hsummary⟩ := summary_of_relocate h
  obtain ⟨hentries, -⟩ := Recording.issue_log hclose
  have hend : EmitStats.ofLog [Command.close.entry] = .zero := rfl
  rw [hcounted _ _ hemit] at hsummary
  refine ⟨hsummary, ?_⟩
  rw [hentries, EmitStats.ofLog_append, ofLog_of_emit hemit, hend]
  rfl

/-- The totals of a tree whose methods share a document are what is counted when it is told, and in
the summary of its relocation. -/
theorem stats_never_drift_sharedDocuments :
    let emitter := Emitter.recording .strict none
    let told := (emitter.emit sharedDocuments).outcome (Emission.start (Recording.start none))
    let outcome := emitter.relocate sharedDocuments .empty (Recording.start none)
    let remapped := sharedDocuments.remap .empty
    sharedDocuments.totals = ⟨2, 2, 4, 3, 3, 2, 2, 2⟩ ∧
      told.1 = .ok () ∧ told.2.stats = ⟨2, 2, 4, 3, 3, 2, 2, 2⟩ ∧
      outcome.result = .ok ⟨2, 0, 2, 4, 3, 2⟩ ∧
      remapped.tree.totals.summary remapped.changed = ⟨2, 0, 2, 4, 3, 2⟩ ∧
      EmitStats.ofLog outcome.sink.entries.toList = remapped.tree.totals := by
  have htotals : sharedDocuments.totals = ⟨2, 2, 4, 3, 3, 2, 2, 2⟩ := by cbv
  have htold : (((Emitter.recording .strict none).emit sharedDocuments).outcome
      (Emission.start (Recording.start none))).1 = .ok () := by cbv
  have hresult : ((Emitter.recording .strict none).relocate sharedDocuments .empty
      (Recording.start none)).result = .ok ⟨2, 0, 2, 4, 3, 2⟩ := by cbv
  obtain ⟨-, hemit, hrelocate⟩ := stats_never_drift .strict none none
  obtain ⟨hsummary, hlog⟩ := hrelocate sharedDocuments .empty _ hresult
  have hstats := hemit sharedDocuments _ (Prod.ext htold rfl)
  exact ⟨htotals, htold, hstats.trans htotals, hresult, hsummary.symm, hlog⟩

end Emitter

end DebugSymbols
