import DebugSymbols.Proofs.Emit.Gather

/-!
# Emission records the log of the tree

A tree that is told to a recording to the end leaves exactly its log there. The parts of it are
followed one by one: the script of a scope tells the calls of the scope, the blobs of a method are
those of its metadata, and methods follow each other with the documents that are known by then.
-/

namespace DebugSymbols

/-! ## Scopes -/

namespace Scope

theorem filterMap_entry?_locals (signature : Token) (span : Span) (locals : List Variable) :
    (locals.map (Variable.step signature span.offset (span.offset + span.length))).filterMap
      Step.entry? = locals.map (Variable.entry signature span) :=
  Step.filterMap_entry?_map locals _

theorem filterMap_entry?_constants (constants : List Constant) :
    (constants.map Constant.step).filterMap Step.entry? = constants.map Constant.entry :=
  Step.filterMap_entry?_map constants _

mutual

/-- A script without a fault tells the calls of the scope; all its ranges have an end. -/
theorem entries_of_scriptThen (context : ScopeContext) (extra : List Constant) (depth : Nat) :
    ∀ (scope : Scope) (next : List Step),
      (∀ step ∈ scope.scriptThen context extra depth next, step.isFault = false) →
        (scope.scriptThen context extra depth next).filterMap Step.entry? =
            scope.entries context.signature extra ++ next.filterMap Step.entry? ∧
          (∀ span ∈ scope.spans, span.reach < UInt32.size) ∧
            ∀ step ∈ next, step.isFault = false
  | ⟨span, locals, constants, children⟩, next, h => by
    rw [scriptThen] at h ⊢
    -- the script breaks off at the limit and at a range without an end, and does neither here
    split at h
    · cases h _ List.mem_cons_self
    · rename_i hdepth
      rw [if_neg hdepth]
      cases hstop : span.stop with
      | error error =>
        rw [hstop] at h
        cases h _ List.mem_cons_self
      | ok stop =>
        rw [hstop] at h
        obtain ⟨hreach, rfl⟩ := Span.stop_eq_ok_iff.1 hstop
        simp only [List.forall_mem_cons, List.forall_mem_append] at h
        obtain ⟨hchildren, hspans, hnext⟩ :=
          entries_of_scriptsThen context (depth + 1) children _ h.2.2.2.2
        rw [List.forall_mem_cons] at hnext
        refine ⟨?_, ?_, hnext.2⟩
        · simp only [List.filterMap_cons, List.filterMap_append, Step.entry?, Command.entry,
            filterMap_entry?_locals, filterMap_entry?_constants, hchildren, entries,
            List.cons_append, List.append_assoc, List.nil_append]
        · rw [spans, List.forall_mem_cons]
          exact ⟨hreach, hspans⟩

/-- Scripts without a fault tell the calls of the scopes; all their ranges have an end. -/
theorem entries_of_scriptsThen (context : ScopeContext) (depth : Nat) :
    ∀ (scopes : List Scope) (next : List Step),
      (∀ step ∈ scriptsThen context depth scopes next, step.isFault = false) →
        (scriptsThen context depth scopes next).filterMap Step.entry? =
            entriesList context.signature scopes ++ next.filterMap Step.entry? ∧
          (∀ span ∈ spansList scopes, span.reach < UInt32.size) ∧
            ∀ step ∈ next, step.isFault = false
  | [], next, h => by
    refine ⟨by rw [scriptsThen, entriesList, List.nil_append], ?_, h⟩
    intro span hspan
    cases hspan
  | scope :: scopes, next, h => by
    rw [scriptsThen] at h ⊢
    obtain ⟨hscope, hspans, hrest⟩ := entries_of_scriptThen context [] depth scope _ h
    obtain ⟨hscopes, hspansList, hnext⟩ := entries_of_scriptsThen context depth scopes next hrest
    refine ⟨?_, ?_, hnext⟩
    · rw [hscope, hscopes, entriesList, List.append_assoc]
    · rw [spansList, List.forall_mem_append]
      exact ⟨hspans, hspansList⟩

end

end Scope

/-! ## Methods -/

namespace Method

/-- The blobs of a method, the class first and then the scopes. -/
theorem blobs_eq_bind (method : Method) :
    method.blobs =
      (if method.iteratorClass.isEmpty then .ok []
        else (Metadata.encodeIteratorClass method.iteratorClass).map fun blob => [blob]) >>=
          fun classBlobs =>
      (if method.iteratorScopes.isEmpty then .ok []
        else (Metadata.encodeIteratorScopes method.iteratorScopes).map fun blob => [blob]) >>=
          fun scopesBlobs => .ok (classBlobs ++ scopesBlobs) := by
  rw [blobs, isIterator]
  cases method.iteratorClass.isEmpty <;> cases method.iteratorScopes.isEmpty <;> rfl

/-- A blob that is written unless there is nothing to write is that of its record. -/
theorem metadata_of_blob (method : Method) {record : Metadata.Record} {empty : Bool}
    {written : Except SymbolError (List UInt8)} {blobs : List (List UInt8)}
    (hwritten : ∀ blob, written = .ok blob ↔ record.Valid ∧ blob = Metadata.layout [record])
    (h : (if empty then .ok [] else written.map fun blob => [blob]) = .ok blobs) :
    blobs.map (fun blob => .setSymbolAttribute method.token Metadata.attributeName blob) =
        (if empty then [] else [method.metadata record]) ∧
      (empty = false → record.Valid) := by
  cases empty with
  | true =>
    cases h
    exact ⟨rfl, fun h => nomatch h⟩
  | false =>
    obtain ⟨blob, hblob, rfl⟩ := map_eq_ok_iff.1 h
    obtain ⟨hvalid, rfl⟩ := (hwritten blob).1 hblob
    exact ⟨rfl, fun _ => hvalid⟩

/-- The blobs of a method are those of its metadata, which is valid. -/
theorem attributes_of_blobs {method : Method} {blobs : List (List UInt8)}
    (h : method.blobs = .ok blobs) :
    blobs.map (fun blob => .setSymbolAttribute method.token Metadata.attributeName blob) =
        method.attributes ∧
      (method.iteratorClass.isEmpty = false →
        (Metadata.Record.iteratorClass (Metadata.withoutTerminator method.iteratorClass)).Valid) ∧
      (method.iteratorScopes.isEmpty = false →
        (Metadata.Record.iteratorScopes method.iteratorScopes).Valid) := by
  rw [blobs_eq_bind] at h
  obtain ⟨classBlobs, hclass, h⟩ := bind_eq_ok_iff.1 h
  obtain ⟨scopesBlobs, hscopes, h⟩ := bind_eq_ok_iff.1 h
  cases h
  obtain ⟨hclass, hclassValid⟩ :=
    metadata_of_blob method (fun _ => Metadata.encodeIteratorClass_eq_ok_iff) hclass
  obtain ⟨hscopes, hscopesValid⟩ :=
    metadata_of_blob method (fun _ => Metadata.encodeIteratorScopes_eq_ok_iff) hscopes
  rw [List.map_append, hclass, hscopes]
  exact ⟨rfl, hclassValid, hscopesValid⟩

/-- The script of a method whose lines have been gathered path by path. -/
theorem script_batches (method : Method) (limit : Nat) (documents : List Document)
    (stretches : List Stretch) (blobs : List (List UInt8)) :
    method.script limit (Stretch.batches (handleOf documents) stretches) blobs =
      .issue (.openMethod method.token) ::
        ((Stretch.paths stretches).map (fun path =>
            .issue (.defineSequencePoints (handleOf documents path)
              (.ofPoints (Stretch.pointsIn stretches path)))) ++
          method.scope.scriptThen ⟨method.token, method.slotToken, limit⟩ method.constants 1
            (blobs.map (fun blob =>
                .issue (.setSymbolAttribute method.token Metadata.attributeName blob)) ++
              [.issue .closeMethod])) := by
  rw [script, Stretch.batches, List.map_map]
  rfl

/-- A script without a fault tells the calls of the method, and they hold all of it. -/
theorem entries_of_script {method : Method} {limit : Nat} {documents : List Document}
    {stretches : List Stretch} {blobs : List (List UInt8)} (hblobs : method.blobs = .ok blobs)
    (h : ∀ step ∈ method.script limit (Stretch.batches (handleOf documents) stretches) blobs,
      step.isFault = false) :
    (method.script limit (Stretch.batches (handleOf documents) stretches) blobs).filterMap
        Step.entry? = method.entries documents stretches ∧ method.Writable := by
  obtain ⟨hmetadata, hclass, hranges⟩ := attributes_of_blobs hblobs
  rw [script_batches, List.forall_mem_cons, List.forall_mem_append] at h
  obtain ⟨hscope, hspans, -⟩ := Scope.entries_of_scriptThen _ _ _ _ _ h.2.2
  refine ⟨?_, hspans, hclass, hranges⟩
  have hattributes : (blobs.map fun blob =>
      Step.issue (.setSymbolAttribute method.token Metadata.attributeName blob)).filterMap
        Step.entry? = method.attributes := by
    rw [← hmetadata]
    exact Step.filterMap_entry?_map blobs _
  have hlines := Step.filterMap_entry?_map (Stretch.paths stretches) fun path =>
    .defineSequencePoints (handleOf documents path) (.ofPoints (Stretch.pointsIn stretches path))
  rw [script_batches, List.filterMap_cons, List.filterMap_append, hlines, hscope,
    List.filterMap_append, hattributes, entries, List.append_assoc, List.append_assoc]
  rfl

end Method

/-! ## Trees -/

namespace Emitter

variable {options : Options} {names : Option Names} {tree : SymbolTree}
  {emission last : Emission Recording} {log : List Entry} {known : List Document}

/-- A method that is told defines its fresh documents and leaves its calls. -/
theorem recorded_emitMethod {method : Method}
    (h : ((Emitter.recording options names).emitMethod tree method).outcome emission =
      (.ok (), last))
    (hrecorded : emission.Recorded log known) :
    let stretches := tree.stretches method.lines
    let used := stretches.map (·.document)
    let documents := known ++ fresh known used
    last.Recorded (log ++ definitions known used ++ method.entries documents stretches)
        documents ∧
      method.Writable := by
  obtain ⟨_, -, h⟩ := Attempt.outcome_lift_bind_eq_ok_iff.1 h
  obtain ⟨batches, gathered, hgather, h⟩ := Attempt.outcome_bind_eq_ok_iff.1 h
  obtain ⟨blobs, hblobs, h⟩ := Attempt.outcome_lift_bind_eq_ok_iff.1 h
  obtain ⟨_, told, htell, h⟩ := Attempt.outcome_bind_eq_ok_iff.1 h
  obtain ⟨rfl, hgathered⟩ := recorded_gatherLines_batches hgather hrecorded
  obtain ⟨hfault, hlast⟩ := recorded_perform h (recorded_tell htell hgathered)
  obtain ⟨hentries, hwritable⟩ := Method.entries_of_script hblobs hfault
  rw [hentries] at hlast
  exact ⟨hlast, hwritable⟩

/-- Methods that are told leave their calls one after the other. -/
theorem recorded_emitMethods {methods : List Method}
    (h : ((Emitter.recording options names).emitMethods tree methods).outcome emission =
      (.ok (), last))
    (hrecorded : emission.Recorded log known) :
    last.Recorded (log ++ tree.methodEntries known methods)
        (known ++ fresh known (tree.usedDocuments methods)) ∧
      ∀ method ∈ methods, method.Writable := by
  induction methods generalizing emission log known with
  | nil =>
    cases h
    rw [SymbolTree.methodEntries, SymbolTree.usedDocuments, List.flatMap_nil, fresh,
      List.append_nil, List.append_nil]
    exact ⟨hrecorded, by simp⟩
  | cons method methods ih =>
    obtain ⟨_, _, hmethod, h⟩ := Attempt.outcome_bind_eq_ok_iff.1 h
    obtain ⟨hnext, hwritable⟩ := recorded_emitMethod hmethod hrecorded
    obtain ⟨hlast, hrest⟩ := ih h hnext
    rw [List.append_assoc, List.append_assoc, List.append_assoc, ← fresh_append] at hlast
    rw [List.forall_mem_cons, SymbolTree.methodEntries, List.append_assoc]
    exact ⟨hlast, hwritable, hrest⟩

theorem filterMap_entry?_entryScript (options : Options) (names : Option Names)
    (tree : SymbolTree) :
    ((Emitter.recording options names).entryScript tree).filterMap Step.entry? =
      tree.entryPointEntries options := by
  rw [entryScript, SymbolTree.entryPointEntries]
  cases tree.entryPoint with
  | none => rfl
  | some token =>
    show (if options.emitEntryPoint then _ else _ : List Step).filterMap _ = _
    split <;> rfl

/-- A tree that is told to a new recording leaves its log and the documents that the log defines. -/
theorem recorded_emit {failOn : Option Operation}
    (h : ((Emitter.recording options names).emit tree).outcome
      (Emission.start (Recording.start failOn)) = (.ok (), last)) :
    last.Recorded (tree.log options) tree.definedDocuments ∧
      ∀ method ∈ tree.methods, method.Writable := by
  obtain ⟨_, middle, hentry, h⟩ := Attempt.outcome_bind_eq_ok_iff.1 h
  obtain ⟨-, hmiddle⟩ := recorded_perform hentry (Emission.recorded_start failOn)
  obtain ⟨hlast, hwritable⟩ := recorded_emitMethods h hmiddle
  rw [filterMap_entry?_entryScript, List.nil_append, List.nil_append] at hlast
  exact ⟨hlast, hwritable⟩

/-- What a tree leaves in a new recording is its log and nothing else. The documents of the
recording are the first ones with each path, and the ends of scopes, which the log gives as 32-bit
words, do not overflow. -/
theorem emit_records_log (options : Options) (names : Option Names) (failOn : Option Operation)
    (tree : SymbolTree) (last : Emission Recording)
    (h : ((Emitter.recording options names).emit tree).outcome
      (Emission.start (Recording.start failOn)) = (.ok (), last)) :
    last.sink.entries.toList = tree.log options ∧
      last.sink.documents.toList = tree.definedDocuments ∧
        ∀ method ∈ tree.methods, ∀ span ∈ method.scope.spans, span.reach < UInt32.size := by
  obtain ⟨hlast, hwritable⟩ := recorded_emit h
  exact ⟨hlast.entries_eq, hlast.documents_eq, fun method hmem => (hwritable method hmem).reach_lt⟩

end Emitter

/-- Two methods that share a document: the groups of the first one interleave two paths and include
an empty group, its scopes are nested, and it is an iterator; the second one uses the first path
under other identifiers. -/
def sharedDocuments : SymbolTree where
  documents := [.csharp "a.cs", .csharp "b.cs", ⟨"a.cs", ⟨1⟩, ⟨2⟩, ⟨3⟩⟩]
  entryPoint := some ⟨0x06000001⟩
  methods :=
    [{ token := ⟨0x06000001⟩
       slotToken := ⟨0x11000001⟩
       lines := [⟨⟨1⟩, [⟨0, 3, 1, 3, 9⟩]⟩, ⟨⟨2⟩, []⟩, ⟨⟨0⟩, [⟨4, 7, 1, 7, 2⟩]⟩, ⟨⟨1⟩, [.hidden 6]⟩]
       scope := ⟨⟨0, 8⟩, [⟨"x", 0, 0⟩], [⟨"c", .i4 7, ⟨0⟩⟩], [⟨⟨2, 4⟩, [⟨"y", 1, 1⟩], [], []⟩]⟩
       constants := [⟨"d", .null, ⟨0⟩⟩]
       iteratorClass := "I"
       iteratorScopes := [⟨1, 2⟩] },
     { token := ⟨0x06000002⟩
       slotToken := ⟨0⟩
       lines := [⟨⟨2⟩, [⟨0, 9, 1, 9, 2⟩]⟩]
       scope := .plain ⟨0, 2⟩
       constants := []
       iteratorClass := ""
       iteratorScopes := [] }]

/-- The log of this tree: two documents are defined, although three are used. -/
theorem Emitter.emit_records_log_sharedDocuments :
    let outcome := ((Emitter.recording .strict none).emit sharedDocuments).outcome
      (Emission.start (Recording.start none))
    outcome.1 = .ok () ∧
      outcome.2.sink.entries.toList =
        [.setUserEntryPoint ⟨0x06000001⟩,
          .defineDocument "b.cs" ⟨0⟩, .defineDocument "a.cs" ⟨1⟩,
          .openMethod ⟨0x06000001⟩,
          .defineSequencePoints ⟨0⟩ (.ofPoints [⟨0, 3, 1, 3, 9⟩, .hidden 6]),
          .defineSequencePoints ⟨1⟩ (.ofPoints [⟨4, 7, 1, 7, 2⟩]),
          .openScope 0,
          .defineLocalVariable ⟨"x", 0, ⟨0x11000001⟩, .ilOffset, 0, 0, 8⟩,
          .defineConstant "c" (.i4 7) ⟨0⟩, .defineConstant "d" .null ⟨0⟩,
          .openScope 2,
          .defineLocalVariable ⟨"y", 1, ⟨0x11000001⟩, .ilOffset, 1, 2, 6⟩,
          .closeScope 6, .closeScope 8,
          .setSymbolAttribute ⟨0x06000001⟩ "MD2"
            [4, 1, 0, 0, 4, 4, 0, 0, 12, 0, 0, 0, 0x49, 0, 0, 0],
          .setSymbolAttribute ⟨0x06000001⟩ "MD2"
            [4, 1, 0, 0, 4, 3, 0, 0, 20, 0, 0, 0, 1, 0, 0, 0, 1, 0, 0, 0, 3, 0, 0, 0],
          .closeMethod,
          .openMethod ⟨0x06000002⟩,
          .defineSequencePoints ⟨1⟩ (.ofPoints [⟨0, 9, 1, 9, 2⟩]),
          .openScope 0, .closeScope 2, .closeMethod] := by
  have hok : (((Emitter.recording .strict none).emit sharedDocuments).outcome
      (Emission.start (Recording.start none))).1 = .ok () := by cbv
  have hlog := emit_records_log .strict none none sharedDocuments _ (Prod.ext hok rfl)
  refine ⟨hok, hlog.1.trans ?_⟩
  decide

end DebugSymbols
