import DebugSymbols.Proofs.Emit.Dialogue
import DebugSymbols.Proofs.Emit.Script

/-!
# How pieces of work of an emitter end

A piece of work of an emitter is judged by a property of the tree: it succeeds if the property
holds, and otherwise it ends with an error that tells a fault of the tree. The recording sink
refuses none of its calls, as every call may stand at the place to which the log has come. The one
exception is a document for which no handle is left.
-/

namespace DebugSymbols

open Place (outside)

/-! ## Verdicts -/

/-- The emission stands between two methods of a tree: its documents are documents of the tree, each
path is defined once, and the sink fails no call on demand. -/
structure Emission.Idle (emission : Emission Recording) (tree : SymbolTree) : Prop where
  recorded : ∃ log, emission.Recorded log emission.sink.documents.toList
  at_outside : emission.sink.At outside
  failOn_eq : emission.sink.failOn = none
  nodup : (emission.sink.documents.toList.map (·.path)).Nodup
  mem_documents : ∀ document ∈ emission.sink.documents.toList, document ∈ tree.documents

/-- An outcome is a success of which `post` holds if `sound` does, and otherwise a fault of the
tree; or no handle was left for a document. -/
inductive Judged {α : Type} (tree : SymbolTree) (sound : Prop)
    (post : α → Emission Recording → Prop) : Except SymbolError α × Emission Recording → Prop
  | success {value : α} {last : Emission Recording} (hsound : sound) (hpost : post value last) :
      Judged tree sound post (.ok value, last)
  | fault {error : SymbolError} {last : Emission Recording} (hfault : error.OfTree)
      (hunsound : ¬ sound) : Judged tree sound post (.error error, last)
  | full {last : Emission Recording} (hidle : last.Idle tree)
      (hsize : UInt32.size ≤ last.sink.documents.size) :
      Judged tree sound post (.error (.sinkFailure .defineDocument .tooManyDocuments), last)

namespace Judged

variable {α β : Type} {tree : SymbolTree} {sound sound' : Prop}
  {post : α → Emission Recording → Prop} {post' : β → Emission Recording → Prop}
  {emission : Emission Recording}

theorem congr {outcome : Except SymbolError α × Emission Recording} (h : sound ↔ sound')
    (hjudged : Judged tree sound post outcome) : Judged tree sound' post outcome := by
  cases hjudged with
  | success hsound hpost => exact success (h.1 hsound) hpost
  | fault hfault hunsound => exact fault hfault (mt h.2 hunsound)
  | full hidle hsize => exact full hidle hsize

theorem imp {other : α → Emission Recording → Prop}
    {outcome : Except SymbolError α × Emission Recording} (hjudged : Judged tree sound post outcome)
    (h : ∀ value last, outcome = (.ok value, last) → post value last → other value last) :
    Judged tree sound other outcome := by
  cases hjudged with
  | success hsound hpost => exact success hsound (h _ _ rfl hpost)
  | fault hfault hunsound => exact fault hfault hunsound
  | full hidle hsize => exact full hidle hsize

/-- One piece of work after another one is judged by both properties. -/
theorem bind {attempt : Attempt (Emission Recording) α}
    {next : α → Attempt (Emission Recording) β}
    (hattempt : Judged tree sound post (attempt.outcome emission))
    (hnext : ∀ value reached, attempt.outcome emission = (.ok value, reached) →
      post value reached → Judged tree sound' post' ((next value).outcome reached)) :
    Judged tree (sound ∧ sound') post' ((attempt >>= next).outcome emission) := by
  rw [Attempt.outcome_bind]
  generalize houtcome : attempt.outcome emission = outcome at hattempt hnext ⊢
  cases hattempt with
  | @success value reached hsound hpost =>
    have hrest := hnext value reached rfl hpost
    exact hrest.congr (and_iff_right hsound).symm
  | fault hfault hunsound => exact fault hfault (mt And.left hunsound)
  | full hidle hsize => exact full hidle hsize

/-- A computation without a state is judged by whether it succeeds. -/
theorem lift {result : Except SymbolError α} (hresult : FailsOnTree result) :
    Judged tree (∃ value, result = .ok value)
      (fun value reached => result = .ok value ∧ reached = emission)
      ((Attempt.lift result : Attempt (Emission Recording) α).outcome emission) := by
  rw [Attempt.outcome_lift]
  cases result with
  | ok value => exact success ⟨value, rfl⟩ ⟨rfl, rfl⟩
  | error error => exact fault (hresult error rfl) (by simp)

end Judged

namespace Emission.Idle

variable {tree : SymbolTree} {emission last : Emission Recording}

theorem start (tree : SymbolTree) : (Emission.start (Recording.start none)).Idle tree where
  recorded := ⟨[], Emission.recorded_start none⟩
  at_outside := Recording.at_start none
  failOn_eq := rfl
  nodup := List.nodup_nil
  mem_documents _ hmem := nomatch hmem

/-- No more documents are defined than the tree has. -/
theorem size_le (h : emission.Idle tree) :
    emission.sink.documents.size ≤ tree.documents.length := by
  have hsubset : emission.sink.documents.toList ⊆ tree.documents := h.mem_documents
  have hnodup : emission.sink.documents.toList.Nodup := List.Nodup.of_map _ h.nodup
  rw [← Array.length_toList]
  exact (hnodup.subperm hsubset).length_le

/-- Nothing but the documents and their handles is known of an idle emission. -/
theorem of_sink_eq (h : emission.Idle tree) (hsink : last.sink = emission.sink)
    (hregistered : last.registered = emission.registered) : last.Idle tree := by
  obtain ⟨log, hrecorded⟩ := h.recorded
  refine ⟨⟨log, ?_, ?_, ?_⟩, ?_, ?_, ?_, ?_⟩ <;> rw [hsink]
  · exact hrecorded.entries_eq
  · rw [hregistered]
    exact hrecorded.handle?_eq
  · exact h.at_outside
  · exact h.failOn_eq
  · exact h.nodup
  · exact h.mem_documents

end Emission.Idle

namespace Emitter

variable (options : Options) (names : Option Names) {tree : SymbolTree}
  {emission last : Emission Recording}

/-! ## Scripts -/

/-- A command that may stand at the place of the sink is accepted. -/
theorem issue_of_at {command : Command} {place next : Place} (hat : emission.sink.At place)
    (hfail : emission.sink.failOn = none) (hnext : place.next? command.entry = some next)
    (hhandles : command.entry.HandlesFit emission.sink.documents.size) :
    ∃ reached, ((Emitter.recording options names).issue command).outcome emission =
        (.ok (), reached) ∧ reached.sink.At next ∧ reached.sink.failOn = none ∧
          reached.sink.documents = emission.sink.documents := by
  obtain ⟨after, hissue⟩ := hat.issue (by simp [hfail]) hnext hhandles
  refine ⟨{ emission with sink := after, stats := emission.stats.count command }, ?_, ?_, ?_, ?_⟩
  · have hsink : (onSink (recordingSink.issue command)).outcome emission =
        (.ok (), { emission with sink := after }) := onSink_eq_iff.2 ⟨after, hissue, rfl⟩
    exact Attempt.outcome_bind_eq_ok_iff.2 ⟨(), _, hsink, rfl⟩
  · obtain ⟨other, hother, -, hafter⟩ := hat.of_issue hissue
    rw [hnext] at hother
    cases hother
    exact hafter
  · obtain ⟨-, -, -, rfl⟩ := Recording.issue_eq_ok_iff.1 hissue
    exact (Recording.failOn_advance _ command).trans hfail
  · exact (Recording.issue_log hissue).2

/-- Steps that lead from the place of the sink to another one are carried out, up to a fault. -/
theorem judged_perform_of_leads (tree : SymbolTree) {steps : List Step} {place target : Place}
    (hat : emission.sink.At place) (hfail : emission.sink.failOn = none)
    (hleads : place.Leads emission.sink.documents.size steps target) :
    Judged tree (∀ step ∈ steps, step.isFault = false)
      (fun _ reached => reached.sink.At target ∧ reached.sink.failOn = none ∧
        reached.sink.documents = emission.sink.documents)
      (((Emitter.recording options names).perform steps).outcome emission) := by
  -- the place is that of the sink before each step; the documents stay those of the start
  induction steps generalizing emission place with
  | nil =>
    obtain rfl : place = target := hleads
    exact .success (by simp) ⟨hat, hfail, rfl⟩
  | cons step steps ih =>
    rw [List.forall_mem_cons]
    cases step with
    | tell notice =>
      have hrest : Judged tree _ _ _ := @ih ⟨emission.registered, emission.stats,
        emission.notices.push notice, emission.sink⟩ place hat hfail hleads
      exact hrest.congr (and_iff_right rfl).symm
    | issue command =>
      obtain ⟨hhandles, next, hnext, hleads⟩ := hleads
      obtain ⟨reached, hissue, hat, hfail, hdocuments⟩ :=
        issue_of_at options names hat hfail hnext hhandles
      rw [← hdocuments] at hleads
      have hrest := ih hat hfail hleads
      rw [hdocuments] at hrest
      rw [perform, Attempt.outcome_bind, hissue]
      exact hrest.congr (and_iff_right rfl).symm
    | fail error =>
      refine .fault hleads ?_
      rintro ⟨hfault, -⟩
      cases hfault

/-- Steps that lead from between methods to between methods are carried out, up to a fault. -/
theorem judged_perform {steps : List Step} (hidle : emission.Idle tree)
    (hleads : outside.Leads emission.sink.documents.size steps outside) :
    Judged tree (∀ step ∈ steps, step.isFault = false) (fun _ last => last.Idle tree)
      (((Emitter.recording options names).perform steps).outcome emission) := by
  have hjudged := judged_perform_of_leads options names tree
    hidle.at_outside hidle.failOn_eq hleads
  apply hjudged.imp
  rintro _ last houtcome ⟨hat, hfail, hdocuments⟩
  obtain ⟨log, hrecorded⟩ := hidle.recorded
  obtain ⟨-, hlast⟩ := recorded_perform houtcome hrecorded
  rw [← hdocuments] at hlast
  exact ⟨⟨_, hlast⟩, hat, hfail, hdocuments ▸ hidle.nodup, hdocuments ▸ hidle.mem_documents⟩

/-! ## Documents -/

/-- A document that has a handle is one of those that were defined for the tree. -/
theorem idle_of_register {document : Document} {handle : DocumentHandle}
    (hidle : emission.Idle tree) (hmem : document ∈ tree.documents)
    (hregister : ((Emitter.recording options names).register document).outcome emission =
      (.ok handle, last))
    (hat : last.sink.At outside) (hfail : last.sink.failOn = none) : last.Idle tree := by
  obtain ⟨log, hrecorded⟩ := hidle.recorded
  obtain ⟨-, hlast⟩ := recorded_register hregister hrecorded
  have hdocuments := hlast.documents_eq
  rw [← hdocuments] at hlast
  refine ⟨⟨_, hlast⟩, hat, hfail, ?_, ?_⟩ <;> rw [hdocuments]
  · exact nodup_map_path_append_fresh _ _ hidle.nodup
  · rw [List.forall_mem_append]
    refine ⟨hidle.mem_documents, fun other hother => ?_⟩
    by_cases hknown : document.path ∈ emission.sink.documents.toList.map (·.path)
    · rw [fresh_singleton_of_mem hknown] at hother
      cases hother
    · rw [fresh_singleton_of_notMem hknown, List.mem_singleton] at hother
      exact hother ▸ hmem

/-- A document is defined if the sink accepts it. -/
theorem outcome_define (document : Document) (emission : Emission Recording) :
    ((Emitter.recording options names).define document).outcome emission =
      match (recordingSink.defineDocument document).outcome emission.sink with
      | (.ok handle, sink) =>
        let registered := emission.registered.insert document.path ⟨handle, document⟩
        let count := emission.stats.documentsRegistered + 1
        let stats := { emission.stats with documentsRegistered := count }
        let notices := emission.notices.push (.registered document.path handle)
        (.ok handle, ⟨registered, stats, notices, sink⟩)
      | (.error error, sink) => (.error error, { emission with sink }) := by
  have hsink : (onSink (recordingSink.defineDocument document)).outcome emission =
      (((recordingSink.defineDocument document).outcome emission.sink).1, { emission with
        sink := ((recordingSink.defineDocument document).outcome emission.sink).2 }) := rfl
  show (onSink (recordingSink.defineDocument document) >>= _).outcome emission = _
  rw [Attempt.outcome_bind, hsink]
  rcases (recordingSink.defineDocument document).outcome emission.sink with ⟨_ | handle, after⟩ <;>
    rfl

/-- A document of the tree has a handle or gets one, unless none is left. -/
theorem judged_register {document : Document} (hidle : emission.Idle tree)
    (hmem : document ∈ tree.documents) :
    Judged tree True (fun _ last => last.Idle tree)
      (((Emitter.recording options names).register document).outcome emission) := by
  cases hregistered : emission.registered.get? document.path with
  | some registration =>
    rw [outcome_register_of_known _ hregistered]
    split <;> exact .success trivial (hidle.of_sink_eq rfl rfl)
  | none =>
    have houtcome := outcome_define options names document emission
    rw [← outcome_register_of_new _ hregistered] at houtcome
    by_cases hsize : emission.sink.documents.size < UInt32.size
    · obtain ⟨after, hdefine⟩ := hidle.at_outside.defineDocument (by simp [hidle.failOn_eq])
        Place.noConfusion hsize document
      obtain ⟨-, -, hat⟩ := hidle.at_outside.of_defineDocument hdefine
      obtain ⟨-, -, -, -, hafter⟩ := Recording.defineDocument_eq_ok_iff.1 hdefine
      have hfail : after.failOn = none := hafter ▸ hidle.failOn_eq
      rw [hdefine] at houtcome
      rw [houtcome]
      exact .success trivial (idle_of_register options names hidle hmem houtcome hat hfail)
    · -- no handle is left
      have hfull := hidle.at_outside.defineDocument_of_full (by simp [hidle.failOn_eq])
        Place.noConfusion (Nat.not_lt.1 hsize) document
      rw [houtcome, hfull]
      exact .full hidle (Nat.not_lt.1 hsize)

end Emitter

/-! ## Lines -/

/-- The batches of stretches in known documents have handles of these documents, and columns of
equal length. -/
theorem Stretch.batches_fit {documents : List Document} {stretches : List Stretch}
    (hknown : ∀ stretch ∈ stretches, stretch.path ∈ documents.map (·.path)) :
    ∀ batch ∈ batches (handleOf documents) stretches,
      batch.1.index < documents.length ∧ batch.2.isConsistent = true := by
  rw [batches, List.forall_mem_map]
  intro path hpath
  obtain ⟨stretch, hmem, rfl⟩ := mem_paths.1 hpath
  have hindex := List.idxOf_lt_length_of_mem (hknown stretch hmem)
  rw [List.length_map] at hindex
  exact ⟨hindex, Batch.isConsistent_ofPoints _⟩

namespace Emitter

variable {options : Options} {names : Option Names} {tree : SymbolTree}
  {emission last : Emission Recording}

/-- The batches that lines are gathered in have handles that were given out, and columns of equal
length. -/
theorem fit_of_gatherLines {method : Token} {lines : List LineGroup}
    {batches : List (DocumentHandle × Batch)} (hidle : emission.Idle tree)
    (hgather : ((Emitter.recording options names).gatherLines tree method lines []).outcome
      emission = (.ok batches, last)) :
    ∀ batch ∈ batches, batch.1.index < last.sink.documents.size ∧ batch.2.isConsistent = true := by
  obtain ⟨log, hrecorded⟩ := hidle.recorded
  obtain ⟨rfl, hlast⟩ := recorded_gatherLines_batches hgather hrecorded
  rw [← Array.length_toList, hlast.documents_eq]
  apply Stretch.batches_fit
  intro stretch hmem
  have hused : stretch.path ∈ ((tree.stretches lines).map (·.document)).map (·.path) := by
    rw [List.map_map]
    exact List.mem_map_of_mem hmem
  exact mem_map_path_append_fresh.2 (Or.inr hused)

/-- The lines of a method are gathered if all its points are in documents of the tree. -/
theorem judged_gatherLines {method : Token} {lines : List LineGroup}
    {batches : List (DocumentHandle × Batch)} (hidle : emission.Idle tree) :
    Judged tree
      (∀ group ∈ lines, group.isEmpty = false →
        ∃ document, documentOf tree method group.document = .ok document)
      (fun _ last => last.Idle tree)
      (((Emitter.recording options names).gatherLines tree method lines batches).outcome
        emission) := by
  induction lines generalizing batches emission with
  | nil => exact .success (by simp) hidle
  | cons group lines ih =>
    rw [gatherLines, List.forall_mem_cons]
    cases hempty : group.isEmpty with
    | true => exact (ih hidle).congr (by simp)
    | false =>
      have hsound {p q : Prop} : p ∧ True ∧ q ↔ (false = false → p) ∧ q := by simp
      apply Judged.congr hsound
      apply Judged.bind (Judged.lift (FailsOnTree.documentOf tree method group.document))
      rintro document reached - ⟨hdocument, hreached⟩
      have hmem : document ∈ tree.documents :=
        List.mem_of_getElem? (document?_of_documentOf hdocument)
      apply Judged.bind (judged_register options names (hreached ▸ hidle) hmem)
      intro handle last _ hlast
      exact ih hlast

end Emitter

end DebugSymbols
