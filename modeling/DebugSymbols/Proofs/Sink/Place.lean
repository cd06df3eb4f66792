import DebugSymbols.Proofs.Sink.Language
import DebugSymbols.Proofs.Sink.Recording

/-!
# The place of a recording

What a recording knows about the past is the place to which its log has come. `recording.At place`
says so, and every call that is accepted keeps it: the call may stand at the place and leads to the
next one. A call that may stand there is accepted, unless it is one that fails on demand.
-/

namespace DebugSymbols

/-! ## What a place says -/

namespace Place

/-- The open method. -/
def method? : Place → Option Token
  | untold method | told method _ => some method
  | _ => none

/-- The starts of the open scopes. -/
def scopes : Place → List UInt32
  | told _ scopes => scopes
  | _ => []

/-- The number of outermost scopes of the open method. -/
def rootScopes : Place → Nat
  | told _ _ => 1
  | _ => 0

theorem ne_ended_of_next? {place next : Place} {entry : Entry}
    (hnext : place.next? entry = some next) : place ≠ ended := by
  rintro rfl
  cases entry <;> cases hnext

/-- What may stand anywhere may stand at every place but the end. -/
theorem holds_of_isFree {place : Place} {entry : Entry} (hopen : place ≠ ended)
    (hfree : entry.isFree = true) : place.holds entry = true := by
  rcases place with _ | _ | ⟨_, _ | _⟩ | _
  case ended => exact absurd rfl hopen
  all_goals cases entry <;> first | rfl | cases hfree

end Place

namespace Recording

open Place (outside ended)

/-! ## Recordings at a place -/

/-- The summary of the past says that the log has come to a place; the sink has not been given
up. -/
structure At (recording : Recording) (place : Place) : Prop where
  method_eq : recording.method = place.method?
  scopes_eq : recording.scopes = place.scopes
  /-- Between methods the number is that of the method before. -/
  rootScopes_eq : place.method?.isSome → recording.rootScopes = place.rootScopes
  finished_eq : recording.finished = decide (place = ended)
  aborted_eq : recording.aborted = false

theorem at_start (failOn : Option Operation) : (start failOn).At outside :=
  ⟨rfl, rfl, (nomatch ·), rfl, rfl⟩

variable {recording after : Recording} {place next : Place} {command : Command}

namespace At

theorem finished_eq_false (h : recording.At place) (hopen : place ≠ ended) :
    recording.finished = false := by
  rw [h.finished_eq]
  exact decide_eq_false hopen

theorem ne_ended (h : recording.At place) (hfinished : recording.finished = false) :
    place ≠ ended := by
  rw [h.finished_eq] at hfinished
  exact of_decide_eq_false hfinished

/-- A command is allowed exactly if it may stand at the place of a recording. -/
theorem allows_iff (h : recording.At place) (hopen : place ≠ ended) :
    recording.Allows command ↔ command.entry.HandlesFit recording.documents.size ∧
      ∃ next, place.next? command.entry = some next := by
  have hmethod := h.method_eq
  have hscopes := h.scopes_eq
  have hroots := h.rootScopes_eq
  -- the place says everything that the summary is asked for
  rcases place with _ | method | ⟨method, _ | ⟨start, outer⟩⟩ | _
  case ended => exact absurd rfl hopen
  all_goals
    simp only [Place.method?, Place.scopes, Place.rootScopes, Option.isSome_some, forall_const]
      at hmethod hscopes hroots
    cases command <;> simp only [Command.entry] <;>
      simp only [Place.next?, ite_some_eq_some_iff] <;>
      simp [Allows, Place.holds, Entry.fitsScope, Entry.fitsMethod, Entry.isFree,
        Entry.HandlesFit, hmethod, hscopes, hroots]

/-- A command that may stand at the place of a recording leads to the next one. -/
theorem advance (h : recording.At place) (hnext : place.next? command.entry = some next) :
    (recording.advance command).At next := by
  have hmethod := h.method_eq
  have hscopes := h.scopes_eq
  have hroots := h.rootScopes_eq
  have hfinished := h.finished_eq_false (Place.ne_ended_of_next? hnext)
  cases command with
  | openMethod method =>
    obtain ⟨rfl, rfl⟩ := ite_some_eq_some_iff.1 hnext
    exact ⟨rfl, hscopes, fun _ => rfl, hfinished, h.aborted_eq⟩
  | closeMethod =>
    rcases place with _ | _ | ⟨method, _ | _⟩ | _ <;> cases hnext
    exact ⟨rfl, hscopes, Bool.noConfusion, hfinished, h.aborted_eq⟩
  | openScope start =>
    rcases place with _ | method | ⟨method, _ | ⟨inner, outer⟩⟩ | _ <;> cases hnext
    · exact ⟨hmethod, congrArg _ hscopes, fun _ => if_pos hscopes, hfinished, h.aborted_eq⟩
    · have hne : recording.scopes ≠ [] := hscopes ▸ List.cons_ne_nil _ _
      exact ⟨hmethod, congrArg _ hscopes, fun hsome => (if_neg hne).trans (hroots hsome),
        hfinished, h.aborted_eq⟩
  | closeScope stop =>
    rcases place with _ | method | ⟨method, _ | ⟨start, outer⟩⟩ | _ <;> try cases hnext
    obtain ⟨-, rfl⟩ := ite_some_eq_some_iff.1 hnext
    exact ⟨hmethod, congrArg List.tail hscopes, hroots, hfinished, h.aborted_eq⟩
  | close =>
    obtain ⟨rfl, rfl⟩ := ite_some_eq_some_iff.1 hnext
    exact ⟨hmethod, hscopes, Bool.noConfusion, rfl, h.aborted_eq⟩
  | _ =>
    -- any other command leaves both the place and the summary
    obtain ⟨-, rfl⟩ := ite_some_eq_some_iff.1 hnext
    exact h

end At

theorem At.record (h : recording.At place) (entry : Entry) : (recording.record entry).At place :=
  ⟨h.method_eq, h.scopes_eq, h.rootScopes_eq, h.finished_eq, h.aborted_eq⟩

/-- A command is accepted if it may stand at the place. -/
theorem At.issue (h : recording.At place) (hfail : recording.failOn ≠ some command.operation)
    (hnext : place.next? command.entry = some next)
    (hhandles : command.entry.HandlesFit recording.documents.size) :
    ∃ after, (recordingSink.issue command).outcome recording = (.ok (), after) := by
  have hfinished := h.finished_eq_false (Place.ne_ended_of_next? hnext)
  have hallowed := (h.allows_iff (Place.ne_ended_of_next? hnext)).2 ⟨hhandles, next, hnext⟩
  exact ⟨_, issue_eq_ok_iff.2 ⟨hfinished, hfail, hallowed, rfl⟩⟩

/-- An accepted command may stand at the place, and leads to the next one. -/
theorem At.of_issue (h : recording.At place)
    (hissue : (recordingSink.issue command).outcome recording = (.ok (), after)) :
    ∃ next, place.next? command.entry = some next ∧
      command.entry.HandlesFit recording.documents.size ∧ after.At next := by
  obtain ⟨hfinished, -, hallowed, rfl⟩ := issue_eq_ok_iff.1 hissue
  obtain ⟨hhandles, next, hnext⟩ := (h.allows_iff (h.ne_ended hfinished)).1 hallowed
  exact ⟨next, hnext, hhandles, (h.advance hnext).record _⟩

/-- A document is accepted at every place but the end, if a handle is left. -/
theorem At.defineDocument (h : recording.At place)
    (hfail : recording.failOn ≠ some .defineDocument) (hopen : place ≠ ended)
    (hsize : recording.documents.size < UInt32.size) (document : Document) :
    ∃ after, (recordingSink.defineDocument document).outcome recording =
      (.ok ⟨recording.documents.size⟩, after) :=
  ⟨_, defineDocument_eq_ok_iff.2 ⟨h.finished_eq_false hopen, hfail, hsize, rfl, rfl⟩⟩

/-- No document is accepted when all handles are given out, and nothing changes. -/
theorem At.defineDocument_of_full (h : recording.At place)
    (hfail : recording.failOn ≠ some .defineDocument) (hopen : place ≠ ended)
    (hsize : UInt32.size ≤ recording.documents.size) (document : Document) :
    (recordingSink.defineDocument document).outcome recording =
      (.error (.sinkFailure .defineDocument .tooManyDocuments), recording) := by
  have hfinished := h.finished_eq_false hopen
  show (attempt _ _ _).outcome recording = _
  rw [attempt, Attempt.outcome_ofOutcome, hfinished, if_neg Bool.false_ne_true, if_neg hfail,
    keepDocument, if_neg (Nat.not_lt.2 hsize)]

/-- A document that is accepted may stand at the place. -/
theorem At.of_defineDocument (h : recording.At place) {document : Document}
    {handle : DocumentHandle}
    (hdefine : (recordingSink.defineDocument document).outcome recording = (.ok handle, after)) :
    place.next? (.defineDocument document.path handle) = some place ∧
      (Entry.defineDocument document.path handle).HandlesFit recording.documents.size ∧
        after.At place := by
  obtain ⟨hfinished, -, hsize, rfl, rfl⟩ := defineDocument_eq_ok_iff.1 hdefine
  refine ⟨if_pos ?_, ⟨rfl, hsize⟩, ?_⟩
  · exact Place.holds_of_isFree (h.ne_ended hfinished) rfl
  · exact ⟨h.method_eq, h.scopes_eq, h.rootScopes_eq, h.finished_eq, h.aborted_eq⟩

end Recording

end DebugSymbols
