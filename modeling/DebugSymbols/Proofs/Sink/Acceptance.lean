import DebugSymbols.Proofs.Sink.Place

/-!
# The recording sink accepts the emission protocol

A recording takes calls in any order, and goes on after a refusal. What may follow its log is what
may follow at its place, and every place has a rest, so the log is the beginning of a complete log
at any time: a call is accepted exactly if this stays so, and a refused call changes nothing. The
documents that are accepted get the handles zero, one, two and so on.
-/

namespace DebugSymbols

/-- The entry that an answered call leaves; none if the answer is not one of this call. -/
def Call.entry? : Call → Option DocumentHandle → Option Entry
  | define document, some handle => some (.defineDocument document.path handle)
  | issue command, none => some command.entry
  | _, _ => none

/-- A document that was accepted, with the handle that was answered. -/
def Call.accepted? : Call × Except SymbolError (Option DocumentHandle) →
    Option (Document × DocumentHandle)
  | (define document, .ok (some handle)) => some (document, handle)
  | _ => none

/-- Makes calls one after the other, whatever becomes of them; gives their answers and the state
that they lead to. -/
def Sink.run {σ : Type} (sink : Sink σ) :
    List Call → σ → List (Except SymbolError (Option DocumentHandle)) × σ
  | [], state => ([], state)
  | call :: rest, state =>
    let (answer, reached) := (sink.perform call).outcome state
    let (answers, last) := sink.run rest reached
    (answer :: answers, last)

/-- What every call keeps is kept by calls made one after the other. -/
theorem Sink.run_invariant {σ : Type} {sink : Sink σ} (Holds : σ → Prop)
    (hstep : ∀ call state, Holds state → Holds ((sink.perform call).outcome state).2)
    (calls : List Call) {state : σ} (hstart : Holds state) : Holds (sink.run calls state).2 := by
  induction calls generalizing state with
  | nil => exact hstart
  | cons call calls ih => exact ih (hstep call state hstart)

/-- What can be asked of a sink: a call, or to be given up. -/
inductive Request
  | call (call : Call)
  | abort

/-- The state of a sink after a request, whatever is answered. -/
def Sink.serve {σ : Type} (sink : Sink σ) (state : σ) : Request → σ
  | .call call => ((sink.perform call).outcome state).2
  | .abort => (sink.abort state).2

namespace Sink

variable {σ : Type} {sink : Sink σ} {state last : σ}

theorem run_cons (sink : Sink σ) (call : Call) (rest : List Call) (state : σ) :
    sink.run (call :: rest) state =
      (((sink.perform call).outcome state).1 ::
        (sink.run rest ((sink.perform call).outcome state).2).1,
        (sink.run rest ((sink.perform call).outcome state).2).2) := rfl

/-- Calls are made one part after the other. -/
theorem run_append (sink : Sink σ) (front back : List Call) (state : σ) :
    sink.run (front ++ back) state =
      ((sink.run front state).1 ++ (sink.run back (sink.run front state).2).1,
        (sink.run back (sink.run front state).2).2) := by
  induction front generalizing state with
  | nil => rfl
  | cons call front ih => rw [List.cons_append, run_cons, run_cons, ih, List.cons_append]

/-! ## Answers -/

/-- A definition is answered with the handle. -/
theorem outcome_perform_define (sink : Sink σ) (document : Document) (state : σ) :
    (sink.perform (.define document)).outcome state =
      (((sink.defineDocument document).outcome state).1.map some,
        ((sink.defineDocument document).outcome state).2) :=
  Attempt.outcome_map _ _ _

/-- A command is answered with nothing. -/
theorem outcome_perform_issue (sink : Sink σ) (command : Command) (state : σ) :
    (sink.perform (.issue command)).outcome state =
      (((sink.issue command).outcome state).1.map fun _ => none,
        ((sink.issue command).outcome state).2) :=
  Attempt.outcome_map _ _ _

theorem perform_define_eq_ok_iff {document : Document} {answer : Option DocumentHandle} :
    (sink.perform (.define document)).outcome state = (.ok answer, last) ↔
      ∃ handle, some handle = answer ∧
        (sink.defineDocument document).outcome state = (.ok handle, last) := by
  rw [outcome_perform_define, Prod.mk.injEq, map_eq_ok_iff]
  constructor
  · rintro ⟨⟨handle, hhandle, rfl⟩, rfl⟩
    exact ⟨handle, rfl, Prod.ext hhandle rfl⟩
  · rintro ⟨handle, rfl, hdefine⟩
    rw [hdefine]
    exact ⟨⟨handle, rfl, rfl⟩, rfl⟩

theorem perform_issue_eq_ok_iff {command : Command} {answer : Option DocumentHandle} :
    (sink.perform (.issue command)).outcome state = (.ok answer, last) ↔
      none = answer ∧ (sink.issue command).outcome state = (.ok (), last) := by
  rw [outcome_perform_issue, Prod.mk.injEq, map_eq_ok_iff]
  constructor
  · rintro ⟨⟨_, hissue, rfl⟩, rfl⟩
    exact ⟨rfl, Prod.ext hissue rfl⟩
  · rintro ⟨rfl, hissue⟩
    rw [hissue]
    exact ⟨⟨(), rfl, rfl⟩, rfl⟩

end Sink

namespace Recording

open Sink (outcome_perform_define outcome_perform_issue perform_define_eq_ok_iff
  perform_issue_eq_ok_iff)

variable {recording after : Recording} {place : Place}

/-! ## Accepted and refused calls -/

/-- An accepted call may stand at the place and leads to the next one, and its entry is added. -/
theorem At.of_perform (h : recording.At place) {call : Call} {answer : Option DocumentHandle}
    (hperform : (recordingSink.perform call).outcome recording = (.ok answer, after)) :
    ∃ entry next, call.entry? answer = some entry ∧ place.next? entry = some next ∧
      entry.HandlesFit recording.documents.size ∧ after.At next ∧
        after.entries.toList = recording.entries.toList ++ [entry] ∧
          after.documents.size = recording.documents.size + entry.issued := by
  cases call with
  | define document =>
    obtain ⟨handle, rfl, hdefine⟩ := perform_define_eq_ok_iff.1 hperform
    obtain ⟨hnext, hhandles, hafter⟩ := h.of_defineDocument hdefine
    obtain ⟨-, hentries, hdocuments⟩ := defineDocument_log hdefine
    refine ⟨_, place, rfl, hnext, hhandles, hafter, hentries, ?_⟩
    rw [← Array.length_toList, hdocuments, List.length_append, Array.length_toList]
    rfl
  | issue command =>
    obtain ⟨rfl, hissue⟩ := perform_issue_eq_ok_iff.1 hperform
    obtain ⟨next, hnext, hhandles, hafter⟩ := h.of_issue hissue
    obtain ⟨hentries, hdocuments⟩ := issue_log hissue
    refine ⟨_, next, rfl, hnext, hhandles, hafter, hentries, ?_⟩
    rw [hdocuments]
    cases command <;> rfl

/-- A call that may stand at the place is accepted. -/
theorem At.perform (h : recording.At place) (hfail : recording.failOn = none) {call : Call}
    {answer : Option DocumentHandle} {entry : Entry} {next : Place}
    (hentry : call.entry? answer = some entry) (hnext : place.next? entry = some next)
    (hhandles : entry.HandlesFit recording.documents.size) :
    ∃ after, (recordingSink.perform call).outcome recording = (.ok answer, after) := by
  cases call with
  | define document =>
    cases answer with
    | none => cases hentry
    | some handle =>
      cases hentry
      obtain ⟨rfl, hsize⟩ := hhandles
      obtain ⟨after, hdefine⟩ :=
        h.defineDocument (by simp [hfail]) (Place.ne_ended_of_next? hnext) hsize document
      exact ⟨after, perform_define_eq_ok_iff.2 ⟨_, rfl, hdefine⟩⟩
  | issue command =>
    cases answer with
    | some handle => cases hentry
    | none =>
      cases hentry
      obtain ⟨after, hissue⟩ := h.issue (by simp [hfail]) hnext hhandles
      exact ⟨after, perform_issue_eq_ok_iff.2 ⟨rfl, hissue⟩⟩

/-- A refused attempt changes nothing, unless it was asked to fail. -/
theorem eq_of_attempt_error_of_failOn {α : Type} {operation : Operation} {entry : α → Entry}
    {step : Recording → Except Refusal (α × Recording)} {error : SymbolError}
    (hfail : recording.failOn = none)
    (h : (attempt operation entry step).outcome recording = (.error error, after)) :
    after = recording := by
  obtain ⟨-, rfl | rfl⟩ := attempt_eq_error h
  · rfl
  · rw [← hfail]

/-- A refused call changes nothing, unless it was asked to fail. -/
theorem perform_eq_error {call : Call} {error : SymbolError} (hfail : recording.failOn = none)
    (h : (recordingSink.perform call).outcome recording = (.error error, after)) :
    after = recording := by
  cases call with
  | define document =>
    rw [outcome_perform_define, Prod.mk.injEq, map_eq_error_iff] at h
    exact eq_of_attempt_error_of_failOn hfail (Prod.ext h.1 h.2)
  | issue command =>
    rw [outcome_perform_issue, Prod.mk.injEq, map_eq_error_iff] at h
    exact eq_of_attempt_error_of_failOn hfail (Prod.ext h.1 h.2)

/-- An accepted call leaves the failure that was asked for as it is. -/
theorem failOn_of_perform {call : Call} {answer : Option DocumentHandle}
    (h : (recordingSink.perform call).outcome recording = (.ok answer, after)) :
    after.failOn = recording.failOn := by
  cases call with
  | define document =>
    obtain ⟨handle, -, hdefine⟩ := perform_define_eq_ok_iff.1 h
    obtain ⟨-, -, -, -, rfl⟩ := defineDocument_eq_ok_iff.1 hdefine
    rfl
  | issue command =>
    obtain ⟨-, hissue⟩ := perform_issue_eq_ok_iff.1 h
    obtain ⟨-, -, -, rfl⟩ := issue_eq_ok_iff.1 hissue
    exact failOn_advance recording command

/-! ## Rests of the log -/

/-- The log has come to a place, so what completes it is what may follow there. -/
structure Follows (recording : Recording) (place : Place) : Prop where
  at_place : recording.At place
  failOn_eq : recording.failOn = none
  complete_iff : ∀ rest, CompleteLog (recording.entries.toList ++ rest) ↔
    place.Rest rest ∧ HandlesFit recording.documents.size rest

theorem follows_start : (start none).Follows .outside where
  at_place := at_start none
  failOn_eq := rfl
  complete_iff _ := ⟨fun h => ⟨h.content, h.handles⟩, fun h => ⟨h.1, h.2⟩⟩

namespace Follows

/-- An accepted call goes on with the log. -/
theorem of_perform (h : recording.Follows place) {call : Call} {answer : Option DocumentHandle}
    (hperform : (recordingSink.perform call).outcome recording = (.ok answer, after)) :
    ∃ next, after.Follows next := by
  obtain ⟨entry, next, -, hnext, hhandles, hat, hentries, hsize⟩ := h.at_place.of_perform hperform
  refine ⟨next, hat, ?_, fun rest => ?_⟩
  · rw [failOn_of_perform hperform, h.failOn_eq]
  · rw [hentries, hsize, List.append_assoc, List.singleton_append, h.complete_iff,
      Place.rest_cons_iff, HandlesFit]
    simp [hnext, hhandles]

/-- The log with another entry is the beginning of a complete log exactly if the entry may stand at
the place. -/
theorem logPrefix_iff (h : recording.Follows place) {entry : Entry} :
    LogPrefix (recording.entries.toList ++ [entry]) ↔
      ∃ next, place.next? entry = some next ∧ entry.HandlesFit recording.documents.size := by
  simp only [LogPrefix, List.append_assoc, List.singleton_append, h.complete_iff,
    Place.rest_cons_iff, HandlesFit]
  constructor
  · rintro ⟨rest, ⟨next, hnext, -⟩, hhandles, -⟩
    exact ⟨next, hnext, hhandles⟩
  · rintro ⟨next, hnext, hhandles⟩
    -- whatever is open at the next place can be closed
    exact ⟨next.ending, ⟨next, hnext, next.rest_ending⟩, hhandles, next.handlesFit_ending _⟩

end Follows

/-- Whatever calls were made, the log has come to a place. -/
theorem follows_run (calls : List Call) :
    ∃ place, (recordingSink.run calls (start none)).2.Follows place := by
  refine Sink.run_invariant (fun recording : Recording => ∃ place, recording.Follows place) ?_
    calls ⟨_, follows_start⟩
  rintro call recording ⟨place, hfollows⟩
  cases houtcome : (recordingSink.perform call).outcome recording with
  | mk result after =>
    cases result with
    | ok answer => exact hfollows.of_perform houtcome
    | error error => exact ⟨place, perform_eq_error hfollows.failOn_eq houtcome ▸ hfollows⟩

/-! ## Documents -/

/-- The documents with their handles. -/
def handled (recording : Recording) : List (Document × DocumentHandle) :=
  recording.documents.toList.zipIdx.map fun (document, index) => (document, ⟨index⟩)

/-- An accepted document is the next one, and its handle counts the documents before it. -/
theorem handled_of_perform {call : Call} {answer : Option DocumentHandle}
    (h : (recordingSink.perform call).outcome recording = (.ok answer, after)) :
    after.handled = recording.handled ++ (Call.accepted? (call, .ok answer)).toList := by
  cases call with
  | define document =>
    obtain ⟨handle, rfl, hdefine⟩ := perform_define_eq_ok_iff.1 h
    obtain ⟨rfl, -, hdocuments⟩ := defineDocument_log hdefine
    rw [handled, hdocuments, List.zipIdx_append, List.map_append, Nat.zero_add]
    rfl
  | issue command =>
    obtain ⟨rfl, hissue⟩ := perform_issue_eq_ok_iff.1 h
    rw [handled, (issue_log hissue).2]
    exact (List.append_nil _).symm

/-- The documents of a recording are those that were accepted, with the handles that were
answered. -/
theorem handled_run (calls : List Call) (recording : Recording)
    (hfail : recording.failOn = none) :
    (recordingSink.run calls recording).2.handled = recording.handled ++
      (calls.zip (recordingSink.run calls recording).1).filterMap Call.accepted? := by
  induction calls generalizing recording with
  | nil => exact (List.append_nil _).symm
  | cons call calls ih =>
    rw [Sink.run]
    cases houtcome : (recordingSink.perform call).outcome recording with
    | mk result after =>
      cases result with
      | ok answer =>
        have hafter := (failOn_of_perform houtcome).trans hfail
        dsimp only
        rw [ih after hafter, handled_of_perform houtcome, List.append_assoc, List.zip_cons_cons,
          List.filterMap_cons]
        cases Call.accepted? (call, .ok answer) <;> rfl
      | error error =>
        obtain rfl := perform_eq_error hfail houtcome
        dsimp only
        rw [ih _ hfail, List.zip_cons_cons, List.filterMap_cons]
        cases call <;> rfl

/-! ## Acceptance -/

/-- The recording sink accepts exactly the emission protocol. Whatever calls were made, the next one
is accepted exactly if the sink has not been closed and the log goes on as the beginning of a
complete log; then its entry is added. A refused call leaves the log, the documents and all later
answers as they were. The handles answered to documents count them from zero on. -/
theorem accepts_exactly_protocol (calls : List Call) (call : Call) :
    let answers := (recordingSink.run calls (start none)).1
    let recording := (recordingSink.run calls (start none)).2
    let outcome := (recordingSink.perform call).outcome recording
    (∀ answer, outcome.1 = .ok answer ↔ recording.isClosed = false ∧
        ∃ entry, call.entry? answer = some entry ∧
          LogPrefix (recording.entries.toList ++ [entry])) ∧
      (∀ answer entry, outcome.1 = .ok answer → call.entry? answer = some entry →
        outcome.2.entries.toList = recording.entries.toList ++ [entry]) ∧
      (∀ error, outcome.1 = .error error →
        outcome.2.entries = recording.entries ∧ outcome.2.documents = recording.documents ∧
          ∀ later, (recordingSink.run later outcome.2).1 = (recordingSink.run later recording).1) ∧
      (calls.zip answers).filterMap Call.accepted? = recording.handled := by
  intro answers recording outcome
  obtain ⟨place, hfollows⟩ := follows_run calls
  have hat : recording.At place := hfollows.at_place
  refine ⟨fun answer => ⟨?_, ?_⟩, ?_, ?_, ?_⟩
  · intro hanswer
    obtain ⟨entry, next, hentry, hnext, hhandles, -⟩ := hat.of_perform (Prod.ext hanswer rfl)
    have hfinished := hat.finished_eq_false (Place.ne_ended_of_next? hnext)
    exact ⟨by rw [isClosed, hfinished]; rfl, entry, hentry,
      hfollows.logPrefix_iff.2 ⟨next, hnext, hhandles⟩⟩
  · rintro ⟨-, entry, hentry, hprefix⟩
    obtain ⟨next, hnext, hhandles⟩ := hfollows.logPrefix_iff.1 hprefix
    obtain ⟨after, hperform⟩ := hat.perform hfollows.failOn_eq hentry hnext hhandles
    exact congrArg Prod.fst hperform
  · intro answer entry hanswer hentry
    obtain ⟨other, next, hother, -, -, -, hentries, -⟩ := hat.of_perform (Prod.ext hanswer rfl)
    rw [hentry] at hother
    cases hother
    exact hentries
  · intro error herror
    have hsame : outcome.2 = recording :=
      perform_eq_error hfollows.failOn_eq (Prod.ext herror rfl)
    rw [hsame]
    exact ⟨rfl, rfl, fun _ => rfl⟩
  · exact (handled_run calls (start none) rfl).symm

end Recording

end DebugSymbols
