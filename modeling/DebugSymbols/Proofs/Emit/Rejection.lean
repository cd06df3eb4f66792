import DebugSymbols.Proofs.Emit.Validity

/-!
# A rejected method leaves documents only

An emitter checks a method before it opens it in the sink. If the tree turns out to be at fault, all
that has happened by then is that documents were registered: the sink is still between methods, and
the table of the emitter agrees with it on the new documents. This holds in any state of the emitter
and of the sink, and also if the emitter trusts the ranges of the tree and none of them overflows.
-/

namespace DebugSymbols

/-! ## Registered documents -/

/-- The call that defines a document under a handle. -/
def registrationEntry (item : Document × DocumentHandle) : Entry :=
  .defineDocument item.1.path item.2

/-- Between two states nothing has happened to the sink but that documents were defined, and both
the sink and the table of the emitter know them under their handles. -/
structure Emission.Registers (defined : List (Document × DocumentHandle))
    (before after : Emission Recording) : Prop where
  entries_eq : after.sink.entries.toList =
    before.sink.entries.toList ++ defined.map registrationEntry
  documents_eq : after.sink.documents.toList = before.sink.documents.toList ++ defined.map (·.1)
  method_eq : after.sink.method = before.sink.method
  registered : ∀ document handle, (document, handle) ∈ defined →
    after.registered.get? document.path = some ⟨handle, document⟩ ∧
      after.sink.document? handle = some document
  /-- What the table had before it has still. -/
  kept : ∀ path registration, before.registered.get? path = some registration →
    after.registered.get? path = some registration

namespace Emission.Registers

variable {before middle after : Emission Recording} {front back : List (Document × DocumentHandle)}

/-- A document that the sink has keeps its handle. -/
theorem document?_eq (h : before.Registers back after) {handle : DocumentHandle}
    {document : Document} (hdocument : before.sink.document? handle = some document) :
    after.sink.document? handle = some document := by
  rw [Recording.document?, ← Array.getElem?_toList] at hdocument ⊢
  obtain ⟨hlt, -⟩ := List.getElem?_eq_some_iff.1 hdocument
  rw [h.documents_eq, List.getElem?_append_left hlt, hdocument]

/-- Nothing happens if only the calls that fail on demand, the notices and the counts change. -/
theorem of_eq (hentries : after.sink.entries = before.sink.entries)
    (hdocuments : after.sink.documents = before.sink.documents)
    (hmethod : after.sink.method = before.sink.method)
    (hregistered : after.registered = before.registered) : before.Registers [] after where
  entries_eq := by rw [hentries, List.map_nil, List.append_nil]
  documents_eq := by rw [hdocuments, List.map_nil, List.append_nil]
  method_eq := hmethod
  registered _ _ hmem := nomatch hmem
  kept path registration hget := by rw [hregistered, hget]

theorem trans (h : before.Registers front middle) (h' : middle.Registers back after) :
    before.Registers (front ++ back) after where
  entries_eq := by rw [h'.entries_eq, h.entries_eq, List.map_append, List.append_assoc]
  documents_eq := by rw [h'.documents_eq, h.documents_eq, List.map_append, List.append_assoc]
  method_eq := h'.method_eq.trans h.method_eq
  registered document handle hmem := by
    rcases List.mem_append.1 hmem with hfront | hback
    · obtain ⟨hget, hdocument⟩ := h.registered document handle hfront
      exact ⟨h'.kept _ _ hget, h'.document?_eq hdocument⟩
    · exact h'.registered document handle hback
  kept path registration hget := h'.kept _ _ (h.kept _ _ hget)

end Emission.Registers

namespace Emitter

variable {options : Options} {names : Option Names} {tree : SymbolTree}
  {emission last : Emission Recording} {error : SymbolError}

/-- A new document is defined in the sink, or the sink refuses it and nothing happens. -/
theorem registers_define {document : Document} {result : Except SymbolError DocumentHandle}
    (h : ((Emitter.recording options names).define document).outcome emission = (result, last))
    (hnew : emission.registered.get? document.path = none) :
    ∃ defined, emission.Registers defined last := by
  rw [outcome_define] at h
  rcases hdefine : (recordingSink.defineDocument document).outcome emission.sink with
    ⟨error | handle, sink⟩
  · rw [hdefine] at h
    cases h
    rw [Recording.eq_of_attempt_error hdefine]
    exact ⟨[], .of_eq rfl rfl rfl rfl⟩
  · rw [hdefine] at h
    cases h
    obtain ⟨-, hentries, hdocuments⟩ := Recording.defineDocument_log hdefine
    obtain ⟨-, -, -, rfl, hsink⟩ := Recording.defineDocument_eq_ok_iff.1 hdefine
    refine ⟨[(document, ⟨emission.sink.documents.size⟩)], hentries, hdocuments, ?_, ?_, ?_⟩
    · rw [hsink]
      rfl
    · intro other handle hmem
      obtain ⟨rfl, rfl⟩ := Prod.mk.inj (List.mem_singleton.1 hmem)
      refine ⟨(Dictionary.get?_insert _ _ _ _).trans (if_pos rfl), ?_⟩
      rw [hsink]
      exact Array.getElem?_push_size
    · intro path registration hget
      show (emission.registered.insert _ _).get? path = _
      rw [Dictionary.get?_insert, if_neg, hget]
      rintro rfl
      rw [hnew] at hget
      cases hget

theorem registers_register {document : Document} {result : Except SymbolError DocumentHandle}
    (h : ((Emitter.recording options names).register document).outcome emission = (result, last)) :
    ∃ defined, emission.Registers defined last := by
  cases hregistered : emission.registered.get? document.path with
  | some registration =>
    -- a path that the table has asks nothing of the sink
    rw [outcome_register_of_known _ hregistered] at h
    split at h <;> cases h <;> exact ⟨[], .of_eq rfl rfl rfl rfl⟩
  | none =>
    rw [outcome_register_of_new _ hregistered] at h
    exact registers_define h hregistered

/-- Whatever becomes of them, line groups do nothing but register documents. -/
theorem registers_gatherLines {method : Token} {lines : List LineGroup}
    {batches : List (DocumentHandle × Batch)}
    {result : Except SymbolError (List (DocumentHandle × Batch))}
    (h : ((Emitter.recording options names).gatherLines tree method lines batches).outcome
      emission = (result, last)) :
    ∃ defined, emission.Registers defined last := by
  induction lines generalizing batches emission with
  | nil =>
    cases h
    exact ⟨[], .of_eq rfl rfl rfl rfl⟩
  | cons group lines ih =>
    rw [gatherLines] at h
    split at h
    · exact ih h
    · rw [Attempt.outcome_bind, Attempt.outcome_lift] at h
      rcases hdocument : documentOf tree method group.document with error | document
      · rw [hdocument] at h
        cases h
        exact ⟨[], .of_eq rfl rfl rfl rfl⟩
      · rw [hdocument] at h
        dsimp only at h
        rw [Attempt.outcome_bind] at h
        rcases hregister : ((Emitter.recording options names).register document).outcome emission
          with ⟨error | handle, middle⟩
        · rw [hregister] at h
          cases h
          exact registers_register hregister
        · rw [hregister] at h
          obtain ⟨front, hfront⟩ := registers_register hregister
          obtain ⟨back, hback⟩ := ih h
          exact ⟨front ++ back, hfront.trans hback⟩

/-! ## Rejected methods -/

/-- A command fails only because of the sink. -/
theorem sinkFailure_of_issue {command : Command}
    (h : ((Emitter.recording options names).issue command).outcome emission =
      (.error error, last)) :
    ∃ operation refusal, error = .sinkFailure operation refusal := by
  rcases Attempt.outcome_bind_eq_error_iff.1 h with hsink | ⟨_, _, -, hcount⟩
  · obtain ⟨sink, hattempt, -⟩ := onSink_eq_iff.1 hsink
    obtain ⟨⟨refusal, hrefusal⟩, -⟩ := Recording.attempt_error_log hattempt
    exact ⟨_, refusal, hrefusal⟩
  · cases hcount

/-- Steps without a fault fail only because of the sink. -/
theorem sinkFailure_of_perform {steps : List Step} (hfault : ∀ step ∈ steps, step.isFault = false)
    (h : ((Emitter.recording options names).perform steps).outcome emission =
      (.error error, last)) :
    ∃ operation refusal, error = .sinkFailure operation refusal := by
  induction steps generalizing emission with
  | nil => cases h
  | cons step steps ih =>
    rw [List.forall_mem_cons] at hfault
    cases step with
    | tell notice =>
      rcases Attempt.outcome_bind_eq_error_iff.1 h with htell | ⟨_, _, -, hrest⟩
      · cases htell
      · exact ih hfault.2 hrest
    | issue command =>
      rcases Attempt.outcome_bind_eq_error_iff.1 h with hissue | ⟨_, _, -, hrest⟩
      · exact sinkFailure_of_issue hissue
      · exact ih hfault.2 hrest
    | fail error => cases hfault.1

/-- The checks before a method is opened leave nothing to go wrong in its script, if the ranges that
they pass over have ends. -/
theorem isFault_script_of_validate {method : Method} {batches : List (DocumentHandle × Batch)}
    {blobs : List (List UInt8)} (hvalidate : method.validate options = .ok ())
    (hreach : options.validateScopes = false →
      ∀ span ∈ method.scope.spans, span.reach < UInt32.size) :
    ∀ step ∈ method.script options.maxScopeDepth batches blobs, step.isFault = false := by
  obtain ⟨hheight, hchecked⟩ := Method.validate_eq_ok_iff.1 hvalidate
  refine Method.isFault_script_iff.2 ⟨hheight, ?_⟩
  cases hscopes : options.validateScopes with
  | true => exact (hchecked hscopes).1.1
  | false => exact hreach hscopes

/-- A method that is rejected because the tree is at fault leaves only documents behind, in whatever
state it is told: no method is open in the sink if there was none before, the calls that were added
define documents, and the table of the emitter has each of them with the handle of the sink. -/
theorem rejected_method_leaves_documents {method : Method}
    (hreach : options.validateScopes = false →
      ∀ span ∈ method.scope.spans, span.reach < UInt32.size)
    (houtside : emission.sink.method = none)
    (h : ((Emitter.recording options names).emitMethod tree method).outcome emission =
      (.error error, last))
    (hfault : error.OfTree) :
    last.sink.method = none ∧ ∃ defined, emission.Registers defined last := by
  suffices hdefined : ∃ defined, emission.Registers defined last by
    obtain ⟨defined, hregisters⟩ := hdefined
    exact ⟨hregisters.method_eq.trans houtside, defined, hregisters⟩
  have hnothing : emission.Registers [] emission := .of_eq rfl rfl rfl rfl
  rcases Attempt.outcome_lift_bind_eq_error_iff.1 h with ⟨-, rfl⟩ | ⟨_, hvalidate, h⟩
  · exact ⟨[], hnothing⟩
  rcases Attempt.outcome_bind_eq_error_iff.1 h with hgather | ⟨batches, gathered, hgather, h⟩
  · exact registers_gatherLines hgather
  rcases Attempt.outcome_lift_bind_eq_error_iff.1 h with ⟨-, rfl⟩ | ⟨blobs, hblobs, h⟩
  · exact registers_gatherLines hgather
  -- from here on the method is opened, and only the sink can fail
  rcases Attempt.outcome_bind_eq_error_iff.1 h with htell | ⟨_, told, -, hperform⟩
  · cases htell
  obtain ⟨operation, refusal, rfl⟩ := sinkFailure_of_perform
    (isFault_script_of_validate hvalidate hreach) hperform
  exact absurd hfault id

/-- A method with a point in the second document of a tree, whose class cannot be written. -/
def brokenClass : Method where
  token := ⟨0x06000001⟩
  slotToken := ⟨0⟩
  lines := [⟨⟨1⟩, [.hidden 0]⟩]
  scope := .plain ⟨0, 2⟩
  constants := []
  iteratorClass := "A\x00B"
  iteratorScopes := []

/-- The document of this method is registered by the time its fault turns out, and the method is not
opened. -/
theorem rejected_method_leaves_documents_brokenClass :
    let start := Emission.start (Recording.start none)
    let outcome :=
      ((Emitter.recording .trusted none).emitMethod sharedDocuments brokenClass).outcome start
    outcome.1 = .error (.invalidTree (.nulInClassName "A\x00B")) ∧
      outcome.2.sink.entries.toList = [.defineDocument "b.cs" ⟨0⟩] ∧
      outcome.2.sink.method = none ∧ ∃ defined, start.Registers defined outcome.2 := by
  have herror : (((Emitter.recording .trusted none).emitMethod sharedDocuments brokenClass).outcome
      (Emission.start (Recording.start none))).1 =
        .error (.invalidTree (.nulInClassName "A\x00B")) := by cbv
  have hentries : (((Emitter.recording .trusted none).emitMethod sharedDocuments
      brokenClass).outcome (Emission.start (Recording.start none))).2.sink.entries.toList =
        [.defineDocument "b.cs" ⟨0⟩] := by cbv
  have hreach : ∀ span ∈ brokenClass.scope.spans, span.reach < UInt32.size := by
    intro span hspan
    obtain rfl := List.mem_singleton.1 hspan
    decide
  exact ⟨herror, hentries,
    rejected_method_leaves_documents (fun _ => hreach) rfl (Prod.ext herror rfl) trivial⟩

end Emitter

end DebugSymbols
