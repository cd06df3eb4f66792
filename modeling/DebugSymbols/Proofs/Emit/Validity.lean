import DebugSymbols.Proofs.Emit.Lossless
import DebugSymbols.Proofs.Emit.Verdict

/-!
# The emitter succeeds exactly on valid trees

A method is valid if its scopes are not nested too deeply and have ends, if its metadata has blobs,
and if its points are in documents of the tree. This is stated without the order in which an emitter
checks it. Telling a tree to a new recording succeeds exactly if every method is valid, and the
recording refuses no call. One thing is taken differently: the class of an iterator is judged as it
is written, without the NUL character at its very end.
-/

namespace DebugSymbols

open Place (outside)

namespace Method

/-- Whether a method of a tree can be told. -/
structure Valid (options : Options) (tree : SymbolTree) (method : Method) : Prop where
  height_le : method.scope.height ≤ options.maxScopeDepth
  reach_lt : ∀ span ∈ method.scope.spans, span.reach < UInt32.size
  nested : options.validateScopes = true → method.scope.Nested
  documents : ∀ group ∈ method.lines, group.points ≠ [] →
    ∃ document, tree.document? group.document = some document ∧ document.path ≠ ""
  class_valid : (Metadata.Record.iteratorClass method.iteratorClass).Valid
  scopes_valid : (Metadata.Record.iteratorScopes method.iteratorScopes).Valid

/-- The method whose class has lost the NUL character at its very end. -/
def withoutTerminator (method : Method) : Method :=
  { method with iteratorClass := Metadata.withoutTerminator method.iteratorClass }

variable {options : Options} {tree : SymbolTree} {method : Method}

/-! ## The checks of a method -/

/-- The checks of a method succeed exactly if its scopes are not too high and, unless the tree is
trusted, all ranges have ends and scopes are nested. -/
theorem validate_eq_ok_iff :
    method.validate options = .ok () ↔
      method.scope.height ≤ options.maxScopeDepth ∧
        (options.validateScopes = true →
          ((∀ span ∈ method.scope.spans, span.reach < UInt32.size) ∧ method.scope.Nested) ∧
            ∀ span ∈ method.iteratorScopes, span.reach < UInt32.size) := by
  have hrange : ∀ span : Span,
      (do let _ ← span.stop : Except SymbolError Unit) = .ok () ↔ span.reach < UInt32.size := by
    intro span
    rw [bind_eq_ok_iff]
    constructor
    · rintro ⟨stop, hstop, -⟩
      exact (Span.stop_eq_ok_iff.1 hstop).1
    · intro hreach
      exact ⟨_, Span.stop_eq_ok_iff.2 ⟨hreach, rfl⟩, rfl⟩
  rw [validate, ← Scope.exceedsDepth_eq_false_iff]
  cases hdepth : method.scope.exceedsDepth options.maxScopeDepth with
  | true => simp
  | false =>
    cases hscopes : options.validateScopes with
    | false => simp
    | true =>
      rw [if_neg Bool.false_ne_true, if_pos rfl, bind_eq_ok_iff]
      constructor
      · rintro ⟨_, hscope, hiterator⟩
        have hreach := forM_eq_ok_iff.1 hiterator
        refine ⟨rfl, fun _ => ⟨(Scope.validate_eq_ok_iff _ _).1 hscope, fun span hmem => ?_⟩⟩
        exact (hrange span).1 (hreach span hmem)
      · rintro ⟨-, h⟩
        obtain ⟨hscope, hreach⟩ := h rfl
        refine ⟨(), (Scope.validate_eq_ok_iff _ _).2 hscope, ?_⟩
        exact forM_eq_ok_iff.2 fun span hmem => (hrange span).2 (hreach span hmem)

/-- A line group has a document exactly if its place in the tree has one with a path. -/
theorem exists_documentOf_eq_ok_iff {token : Token} {id : DocumentId} :
    (∃ document, Emitter.documentOf tree token id = .ok document) ↔
      ∃ document, tree.document? id = some document ∧ document.path ≠ "" := by
  rw [Emitter.documentOf]
  cases tree.document? id with
  | none => simp
  | some document =>
    cases hempty : document.path.isEmpty with
    | true => simp [String.isEmpty_iff.1 hempty]
    | false =>
      have hne : document.path ≠ "" := by
        intro h
        rw [h] at hempty
        cases hempty
      simp [hne]

/-- A blob that is written unless there is nothing to write can be written exactly if its record is
valid, which is so if there is nothing to write. -/
theorem exists_blob_eq_ok_iff {record : Metadata.Record} {empty : Bool}
    {written : Except SymbolError (List UInt8)}
    (hwritten : ∀ blob, written = .ok blob ↔ record.Valid ∧ blob = Metadata.layout [record])
    (hempty : empty = true → record.Valid) :
    (∃ blobs, (if empty then .ok [] else written.map fun blob => [blob]) = .ok blobs) ↔
      record.Valid := by
  cases empty with
  | true => exact ⟨fun _ => hempty rfl, fun _ => ⟨[], rfl⟩⟩
  | false =>
    constructor
    · rintro ⟨blobs, hblobs⟩
      obtain ⟨blob, hblob, -⟩ := map_eq_ok_iff.1 hblobs
      exact ((hwritten blob).1 hblob).1
    · intro hvalid
      exact ⟨_, map_eq_ok_iff.2 ⟨_, (hwritten _).2 ⟨hvalid, rfl⟩, rfl⟩⟩

/-- A method has blobs exactly if the records of its class and its scopes are valid. -/
theorem exists_blobs_eq_ok_iff :
    (∃ blobs, method.blobs = .ok blobs) ↔
      (Metadata.Record.iteratorClass (Metadata.withoutTerminator method.iteratorClass)).Valid ∧
        (Metadata.Record.iteratorScopes method.iteratorScopes).Valid := by
  have hempty : method.iteratorClass.isEmpty = true →
      (Metadata.Record.iteratorClass (Metadata.withoutTerminator method.iteratorClass)).Valid := by
    intro h
    rw [String.isEmpty_iff.1 h]
    decide
  have hemptyScopes : method.iteratorScopes.isEmpty = true →
      (Metadata.Record.iteratorScopes method.iteratorScopes).Valid := by
    intro h
    rw [List.isEmpty_iff.1 h]
    decide
  have hclass : (∃ blobs, _ = Except.ok blobs) ↔ _ := exists_blob_eq_ok_iff
    (fun _ => Metadata.encodeIteratorClass_eq_ok_iff) hempty
  have hscopes : (∃ blobs, _ = Except.ok blobs) ↔ _ := exists_blob_eq_ok_iff
    (fun _ => Metadata.encodeIteratorScopes_eq_ok_iff) hemptyScopes
  rw [blobs_eq_bind, exists_bind_eq_ok_iff, ← hclass, ← hscopes]
  simp only [exists_bind_eq_ok_iff]
  constructor
  · rintro ⟨classBlobs, hclassBlobs, scopesBlobs, hscopesBlobs, -⟩
    exact ⟨⟨classBlobs, hclassBlobs⟩, scopesBlobs, hscopesBlobs⟩
  · rintro ⟨⟨classBlobs, hclassBlobs⟩, scopesBlobs, hscopesBlobs⟩
    exact ⟨classBlobs, hclassBlobs, scopesBlobs, hscopesBlobs, _, rfl⟩

/-- All checks of a method, and everything that is worked out about it, succeed exactly if the
method is valid without the terminator of its class. -/
theorem valid_withoutTerminator_iff :
    method.withoutTerminator.Valid options tree ↔
      (∃ value, method.validate options = .ok value) ∧
        (∀ group ∈ method.lines, group.isEmpty = false →
          ∃ document, Emitter.documentOf tree method.token group.document = .ok document) ∧
        (∃ blobs, method.blobs = .ok blobs) ∧
          method.scope.height ≤ options.maxScopeDepth ∧
            ∀ span ∈ method.scope.spans, span.reach < UInt32.size := by
  have hempty : ∀ group : LineGroup, group.isEmpty = false ↔ group.points ≠ [] := by
    intro group
    rw [LineGroup.isEmpty, List.isEmpty_eq_false_iff]
  have hvalidate : (∃ value, method.validate options = .ok value) ↔
      method.validate options = .ok () := by
    constructor
    · rintro ⟨_, h⟩
      exact h
    · exact fun h => ⟨(), h⟩
  simp only [hvalidate, validate_eq_ok_iff, exists_documentOf_eq_ok_iff, exists_blobs_eq_ok_iff,
    hempty]
  constructor
  · rintro ⟨hheight, hreach, hnested, hdocuments, hclass, hscopes⟩
    exact ⟨⟨hheight, fun h => ⟨⟨hreach, hnested h⟩, hscopes.sound⟩⟩, hdocuments,
      ⟨hclass, hscopes⟩, hheight, hreach⟩
  · rintro ⟨⟨-, hchecked⟩, hdocuments, ⟨hclass, hscopes⟩, hheight, hreach⟩
    exact ⟨hheight, hreach, fun h => (hchecked h).1.2, hdocuments, hclass, hscopes⟩

/-- A method is valid exactly if it is so without the terminator of its class and the class holds no
NUL character. -/
theorem valid_iff_withoutTerminator :
    method.Valid options tree ↔
      method.withoutTerminator.Valid options tree ∧ '\x00' ∉ method.iteratorClass.toList := by
  constructor
  · intro h
    have hnul : '\x00' ∉ method.iteratorClass.toList := h.class_valid.sound
    refine ⟨?_, hnul⟩
    rw [withoutTerminator, Metadata.withoutTerminator_of_notMem hnul]
    exact h
  · rintro ⟨h, hnul⟩
    rw [withoutTerminator, Metadata.withoutTerminator_of_notMem hnul] at h
    exact h

end Method

/-! ## Trees -/

namespace Emitter

variable {options : Options} {names : Option Names} {tree : SymbolTree}
  {emission : Emission Recording}

/-- A method is told if it is valid without the terminator of its class. -/
theorem judged_emitMethod (method : Method) (hidle : emission.Idle tree) :
    Judged tree (method.withoutTerminator.Valid options tree) (fun _ last => last.Idle tree)
      (((Emitter.recording options names).emitMethod tree method).outcome emission) := by
  apply Judged.congr Method.valid_withoutTerminator_iff.symm
  apply Judged.bind (Judged.lift (FailsOnTree.validate options method))
  rintro _ _ - ⟨-, rfl⟩
  apply Judged.bind (judged_gatherLines hidle)
  intro batches gathered hgather hgathered
  apply Judged.bind (Judged.lift (FailsOnTree.blobs method))
  rintro blobs reached - ⟨-, hreached⟩
  rw [hreached]
  -- a notice changes nothing that the rest depends on
  have htold : ∀ notices, { gathered with notices : Emission Recording }.Idle tree :=
    fun notices => hgathered.of_sink_eq rfl rfl
  apply Judged.congr Method.isFault_script_iff
  have hbatches := fit_of_gatherLines hidle hgather
  exact judged_perform options names (htold _) (Method.leads_script blobs hbatches)

/-- Methods are told if all of them are valid without the terminators of their classes. -/
theorem judged_emitMethods (options : Options) (names : Option Names) (methods : List Method)
    (hidle : emission.Idle tree) :
    Judged tree (∀ method ∈ methods, method.withoutTerminator.Valid options tree)
      (fun _ last => last.Idle tree)
      (((Emitter.recording options names).emitMethods tree methods).outcome emission) := by
  induction methods generalizing emission with
  | nil => exact .success (by simp) hidle
  | cons method methods ih =>
    rw [List.forall_mem_cons]
    exact Judged.bind (judged_emitMethod method hidle) fun _ _ _ hnext => ih hnext

/-- The entry point can be told between methods, and the steps that tell it have no fault. -/
theorem leads_entryScript (emitter : Emitter Recording) (tree : SymbolTree) (count : Nat) :
    outside.Leads count (emitter.entryScript tree) outside ∧
      ∀ step ∈ emitter.entryScript tree, step.isFault = false := by
  rw [entryScript]
  cases tree.entryPoint with
  | none => exact ⟨rfl, by simp⟩
  | some token =>
    dsimp only
    split
    · exact ⟨⟨trivial, outside, rfl, rfl⟩, by simp [Step.isFault]⟩
    · exact ⟨rfl, by simp⟩

/-- A tree is told if all its methods are valid without the terminators of their classes. -/
theorem judged_emit (options : Options) (names : Option Names) (tree : SymbolTree) :
    Judged tree (∀ method ∈ tree.methods, method.withoutTerminator.Valid options tree)
      (fun _ last => last.Idle tree)
      (((Emitter.recording options names).emit tree).outcome
        (Emission.start (Recording.start none))) := by
  have hstart := Emission.Idle.start tree
  obtain ⟨hleads, hfault⟩ := leads_entryScript (Emitter.recording options names) tree
    (Emission.start (Recording.start none)).sink.documents.size
  have hentry := judged_perform options names hstart hleads
  have hjudged := Judged.bind hentry fun _ _ _ hlast =>
    judged_emitMethods options names tree.methods hlast
  exact hjudged.congr (and_iff_right hfault)

/-- If there is a handle for each document of a tree, the tree is told unless it is at fault. -/
theorem ofTree_of_emit {options : Options} {names : Option Names} {tree : SymbolTree}
    (hcount : tree.documents.length < UInt32.size) {error : SymbolError}
    (h : (((Emitter.recording options names).emit tree).outcome
      (Emission.start (Recording.start none))).1 = .error error) : error.OfTree := by
  have hjudged := judged_emit options names tree
  generalize ((Emitter.recording options names).emit tree).outcome
    (Emission.start (Recording.start none)) = outcome at h hjudged
  cases hjudged with
  | success hsound hpost => cases h
  | fault hfault hunsound =>
    cases h
    exact hfault
  | full hidle hsize => exact absurd (hsize.trans hidle.size_le) (Nat.not_le.2 hcount)

/-- Telling a tree to a new recording never fails because of the sink, and it succeeds exactly if
every method of the tree is valid, but for the NUL character that the class of an iterator may have
at its very end. -/
theorem emit_succeeds_exactly_on_valid (options : Options) (names : Option Names)
    (tree : SymbolTree) (hcount : tree.documents.length < UInt32.size) :
    let result := (((Emitter.recording options names).emit tree).outcome
      (Emission.start (Recording.start none))).1
    (∀ operation refusal, result ≠ .error (.sinkFailure operation refusal)) ∧
      (result = .ok () ↔ ∀ method ∈ tree.methods, method.withoutTerminator.Valid options tree) ∧
        ((result = .ok () ∧ ∀ method ∈ tree.methods, '\x00' ∉ method.iteratorClass.toList) ↔
          ∀ method ∈ tree.methods, method.Valid options tree) := by
  intro result
  have hresult : (∀ operation refusal, result ≠ .error (.sinkFailure operation refusal)) ∧
      (result = .ok () ↔ ∀ method ∈ tree.methods, method.withoutTerminator.Valid options tree) := by
    have hjudged := judged_emit options names tree
    simp only [result]
    generalize ((Emitter.recording options names).emit tree).outcome
      (Emission.start (Recording.start none)) = outcome at hjudged ⊢
    cases hjudged with
    | success hvalid hlast => exact ⟨by simp, fun _ => hvalid, fun _ => rfl⟩
    | @fault error last hfault hinvalid =>
      refine ⟨?_, by simp [hinvalid]⟩
      rintro operation refusal hfailure
      cases hfailure
      exact hfault
    | full hidle hsize => exact absurd (hsize.trans hidle.size_le) (Nat.not_le.2 hcount)
  refine ⟨hresult.1, hresult.2, ?_⟩
  rw [hresult.2, ← forall₂_and]
  exact forall₂_congr fun method _ => Method.valid_iff_withoutTerminator.symm

/-- A tree that is told, and whose methods are valid. -/
theorem emit_succeeds_exactly_on_valid_sharedDocuments :
    sharedDocuments.documents.length < UInt32.size ∧
      (((Emitter.recording .strict none).emit sharedDocuments).outcome
        (Emission.start (Recording.start none))).1 = .ok () ∧
      ∀ method ∈ sharedDocuments.methods, method.Valid .strict sharedDocuments := by
  have hcount : sharedDocuments.documents.length < UInt32.size := by decide
  have hok : (((Emitter.recording .strict none).emit sharedDocuments).outcome
      (Emission.start (Recording.start none))).1 = .ok () := by cbv
  have hnul : ∀ method ∈ sharedDocuments.methods, '\x00' ∉ method.iteratorClass.toList := by decide
  obtain ⟨-, -, hvalid⟩ := emit_succeeds_exactly_on_valid .strict none sharedDocuments hcount
  exact ⟨hcount, hok, hvalid.1 ⟨hok, hnul⟩⟩

/-- A tree whose only method is not valid, as its class ends with a NUL character, is told all the
same. -/
theorem emit_accepts_final_nul :
    ¬ ((((Emitter.recording .strict none).emit (singleIterator "X\x00")).outcome
        (Emission.start (Recording.start none))).1 = .ok () ↔
      ∀ method ∈ (singleIterator "X\x00").methods,
        method.Valid .strict (singleIterator "X\x00")) := by
  have hok : (((Emitter.recording .strict none).emit (singleIterator "X\x00")).outcome
      (Emission.start (Recording.start none))).1 = .ok () := by cbv
  intro h
  have hvalid := h.1 hok _ List.mem_cons_self
  exact hvalid.class_valid.sound (by decide)

end Emitter

end DebugSymbols
