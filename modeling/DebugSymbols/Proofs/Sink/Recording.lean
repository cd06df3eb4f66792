import DebugSymbols.Proofs.Attempt
import DebugSymbols.Sink.Recording

/-!
# Calls that a recording sink accepts

A call is accepted exactly if the sink is not finished, no failure was asked for, and the protocol
allows the call; then its entry is added. `transition_eq_ok_iff` says once which commands the
summary of the past allows and what becomes of it; neither the entries nor the documents are
touched.
-/

namespace DebugSymbols.Recording

variable {recording after : Recording}

@[simp] theorem documents_record (recording : Recording) (entry : Entry) :
    (recording.record entry).documents = recording.documents := rfl

@[simp] theorem toList_entries_record (recording : Recording) (entry : Entry) :
    (recording.record entry).entries.toList = recording.entries.toList ++ [entry] :=
  Array.toList_push

/-- Whether the summary of the past allows a command. -/
def Allows (recording : Recording) : Command → Prop
  | .setUserEntryPoint _ => True
  | .openMethod _ | .close => recording.method = none
  | .closeMethod => recording.method ≠ none ∧ recording.scopes = [] ∧ recording.rootScopes = 1
  | .openScope _ => recording.method ≠ none ∧ (recording.scopes = [] → recording.rootScopes = 0)
  | .closeScope stop =>
    recording.method ≠ none ∧ ∃ start outer, recording.scopes = start :: outer ∧ start ≤ stop
  | .defineSequencePoints handle batch =>
    recording.method ≠ none ∧ handle.index < recording.documents.size ∧ batch.isConsistent = true
  | .defineLocalVariable _ | .defineConstant _ _ _ =>
    recording.method ≠ none ∧ recording.scopes ≠ []
  | .setSymbolAttribute parent _ _ => some parent = recording.method

/-- The summary of the past with an allowed command. -/
def advance (recording : Recording) : Command → Recording
  | .openMethod method => { recording with method := some method, rootScopes := 0 }
  | .closeMethod => { recording with method := none }
  | .openScope start =>
    let rootScopes := if recording.scopes = [] then 1 else recording.rootScopes
    { recording with rootScopes, scopes := start :: recording.scopes }
  | .closeScope _ => { recording with scopes := recording.scopes.tail }
  | .close => { recording with finished := true }
  | .setUserEntryPoint _ | .defineSequencePoints _ _ | .defineLocalVariable _
  | .defineConstant _ _ _ | .setSymbolAttribute _ _ _ => recording

theorem inMethod_eq_ok_iff {method : Token} :
    recording.inMethod = .ok method ↔ recording.method = some method := by
  rw [inMethod]
  cases recording.method <;> simp

theorem inScope_eq_ok_iff {start : UInt32} {outer : List UInt32} :
    recording.inScope = .ok (start, outer) ↔
      recording.method ≠ none ∧ recording.scopes = start :: outer := by
  rw [inScope, inMethod]
  cases recording.method <;> cases recording.scopes <;> simp [bind, Except.bind, pure, Except.pure]

/-- The commands that the protocol accepts are those that the summary of the past allows. -/
theorem transition_eq_ok_iff {command : Command} :
    recording.transition command = .ok after ↔
      recording.Allows command ∧ recording.advance command = after := by
  cases command with
  | setUserEntryPoint method => simp [transition, Allows, advance]
  | openMethod method =>
    rw [transition, Allows, advance]
    cases recording.method <;> simp
  | closeMethod =>
    rw [transition, Allows, advance, bind_eq_ok_iff]
    simp only [inMethod_eq_ok_iff]
    cases recording.method with
    | none => simp
    | some method =>
      by_cases hscopes : recording.scopes = [] <;> by_cases hroots : recording.rootScopes = 1 <;>
        simp [hscopes, hroots]
  | openScope start =>
    rw [transition, Allows, advance, bind_eq_ok_iff]
    simp only [inMethod_eq_ok_iff]
    cases recording.method with
    | none => simp
    | some method =>
      by_cases hscopes : recording.scopes = [] <;> by_cases hroots : recording.rootScopes = 0 <;>
        simp [hscopes, hroots]
  | closeScope stop =>
    rw [transition, Allows, advance, bind_eq_ok_iff]
    simp only [Prod.exists, inScope_eq_ok_iff]
    cases recording.scopes with
    | nil => simp
    | cons start outer =>
      by_cases hordered : stop < start
      · simp [hordered, UInt32.not_le.2 hordered]
      · simp [hordered, UInt32.not_lt.1 hordered, and_assoc]
  | defineSequencePoints handle batch =>
    rw [transition, Allows, advance, bind_eq_ok_iff]
    simp only [inMethod_eq_ok_iff, document?]
    cases recording.method with
    | none => simp
    | some method =>
      by_cases hhandle : handle.index < recording.documents.size <;>
        cases hbatch : batch.isConsistent <;> simp [hhandle]
  | defineLocalVariable variable_ =>
    rw [transition, Allows, advance, bind_eq_ok_iff]
    simp only [Prod.exists, inScope_eq_ok_iff]
    cases recording.scopes <;> simp [pure, Except.pure]
  | defineConstant name value signature =>
    rw [transition, Allows, advance, bind_eq_ok_iff]
    simp only [Prod.exists, inScope_eq_ok_iff]
    cases recording.scopes <;> simp [pure, Except.pure]
  | setSymbolAttribute parent name data =>
    rw [transition, Allows, advance, bind_eq_ok_iff]
    simp only [inMethod_eq_ok_iff]
    cases recording.method with
    | none => simp
    | some method =>
      by_cases hparent : parent = method <;> simp [hparent]
  | close =>
    rw [transition, Allows, advance]
    cases recording.method <;> simp

@[simp] theorem entries_advance (recording : Recording) (command : Command) :
    (recording.advance command).entries = recording.entries := by
  cases command <;> rfl

@[simp] theorem documents_advance (recording : Recording) (command : Command) :
    (recording.advance command).documents = recording.documents := by
  cases command <;> rfl

@[simp] theorem failOn_advance (recording : Recording) (command : Command) :
    (recording.advance command).failOn = recording.failOn := by
  cases command <;> rfl

@[simp] theorem aborted_advance (recording : Recording) (command : Command) :
    (recording.advance command).aborted = recording.aborted := by
  cases command <;> rfl

/-- Only the end of the sink finishes a recording. -/
theorem finished_advance (hopen : recording.finished = false) (command : Command) :
    (recording.advance command).finished = decide (command = .close) := by
  cases command <;> simp [advance, hopen]

/-- A call to a recording of which no failure was asked for. -/
theorem outcome_attempt {α : Type} {called : Operation} {entry : α → Entry}
    {step : Recording → Except Refusal (α × Recording)} (hfail : recording.failOn = none) :
    (attempt called entry step).outcome recording =
      if recording.finished then (.error (.sinkFailure called .alreadyClosed), recording)
      else
        match step recording with
        | .error refusal => (.error (.sinkFailure called refusal), recording)
        | .ok (answer, next) => (.ok answer, next.record (entry answer)) := by
  have hnone : recording.failOn ≠ some called := by simp [hfail]
  rw [attempt, Attempt.outcome_ofOutcome]
  cases recording.finished with
  | true => rfl
  | false => exact if_neg hnone

/-- An attempt succeeds exactly if nothing stands against it and its step succeeds. -/
theorem attempt_eq_ok_iff {α : Type} {operation : Operation} {entry : α → Entry}
    {step : Recording → Except Refusal (α × Recording)} {answer : α} :
    (attempt operation entry step).outcome recording = (.ok answer, after) ↔
      recording.finished = false ∧ recording.failOn ≠ some operation ∧
        ∃ next, step recording = .ok (answer, next) ∧ after = next.record (entry answer) := by
  rw [attempt, Attempt.outcome_ofOutcome]
  by_cases hfinished : recording.finished = true
  · simp [hfinished]
  · by_cases hfail : recording.failOn = some operation
    · simp [hfinished, hfail]
    · simp only [hfinished, hfail, Bool.false_eq_true, if_false, ne_eq, not_false_eq_true, true_and]
      cases hstep : step recording with
      | error refusal => simp
      | ok result =>
        obtain ⟨value, next⟩ := result
        constructor
        · intro h
          cases h
          exact ⟨next, rfl, rfl⟩
        · rintro ⟨_, h, rfl⟩
          cases h
          rfl

/-- A command is accepted exactly if nothing stands against it and the protocol allows it. -/
theorem issue_eq_ok_iff {command : Command} :
    (recordingSink.issue command).outcome recording = (.ok (), after) ↔
      recording.finished = false ∧ recording.failOn ≠ some command.operation ∧
        recording.Allows command ∧ after = (recording.advance command).record command.entry := by
  have hcarry : ∀ next, carryOut command recording = .ok ((), next) ↔
      recording.Allows command ∧ recording.advance command = next := by
    intro next
    rw [carryOut, map_eq_ok_iff, ← transition_eq_ok_iff]
    simp
  show (attempt _ _ _).outcome recording = _ ↔ _
  rw [attempt_eq_ok_iff]
  simp only [hcarry, and_assoc, exists_and_left, exists_eq_left']

/-- A document is accepted exactly if nothing stands against it and a handle is left for it. -/
theorem defineDocument_eq_ok_iff {document : Document} {handle : DocumentHandle} :
    (recordingSink.defineDocument document).outcome recording = (.ok handle, after) ↔
      recording.finished = false ∧ recording.failOn ≠ some .defineDocument ∧
        recording.documents.size < UInt32.size ∧ handle = ⟨recording.documents.size⟩ ∧
          after = { recording with documents := recording.documents.push document }.record
            (.defineDocument document.path handle) := by
  show (attempt _ _ _).outcome recording = _ ↔ _
  rw [attempt_eq_ok_iff]
  refine and_congr_right fun _ => and_congr_right fun _ => ?_
  dsimp only [keepDocument]
  constructor
  · rintro ⟨next, hnext, rfl⟩
    split at hnext
    · rename_i hsize
      cases hnext
      exact ⟨hsize, rfl, rfl⟩
    · cases hnext
  · rintro ⟨hsize, rfl, rfl⟩
    exact ⟨_, if_pos hsize, rfl⟩

/-- An accepted command adds its entry, and no document. -/
theorem issue_log {command : Command}
    (h : (recordingSink.issue command).outcome recording = (.ok (), after)) :
    after.entries.toList = recording.entries.toList ++ [command.entry] ∧
      after.documents = recording.documents := by
  obtain ⟨-, -, -, rfl⟩ := issue_eq_ok_iff.1 h
  simp

/-- An accepted document gets the next handle, and stands behind the others. -/
theorem defineDocument_log {document : Document} {handle : DocumentHandle}
    (h : (recordingSink.defineDocument document).outcome recording = (.ok handle, after)) :
    handle = ⟨recording.documents.toList.length⟩ ∧
      after.entries.toList =
        recording.entries.toList ++ [.defineDocument document.path handle] ∧
      after.documents.toList = recording.documents.toList ++ [document] := by
  obtain ⟨-, -, -, hhandle, rfl⟩ := defineDocument_eq_ok_iff.1 h
  refine ⟨?_, toList_entries_record _ _, ?_⟩
  · rw [hhandle, Array.length_toList]
  · rw [documents_record, Array.toList_push]

/-- An attempt fails with a failure of the sink, and changes nothing but the failure that was asked
for. -/
theorem attempt_eq_error {α : Type} {operation : Operation} {entry : α → Entry}
    {step : Recording → Except Refusal (α × Recording)} {error : SymbolError}
    (h : (attempt operation entry step).outcome recording = (.error error, after)) :
    (∃ refusal, error = .sinkFailure operation refusal) ∧
      (after = recording ∨ after = { recording with failOn := none }) := by
  rw [attempt, Attempt.outcome_ofOutcome] at h
  split at h
  · cases h
    exact ⟨⟨_, rfl⟩, Or.inl rfl⟩
  · split at h
    · cases h
      exact ⟨⟨_, rfl⟩, Or.inr rfl⟩
    · split at h
      · cases h
        exact ⟨⟨_, rfl⟩, Or.inl rfl⟩
      · cases h

/-- An attempt that fails adds neither an entry nor a document. -/
theorem attempt_error_log {α : Type} {operation : Operation} {entry : α → Entry}
    {step : Recording → Except Refusal (α × Recording)} {error : SymbolError}
    (h : (attempt operation entry step).outcome recording = (.error error, after)) :
    (∃ refusal, error = .sinkFailure operation refusal) ∧
      after.entries = recording.entries ∧ after.documents = recording.documents := by
  obtain ⟨hrefusal, rfl | rfl⟩ := attempt_eq_error h
  · exact ⟨hrefusal, rfl, rfl⟩
  · exact ⟨hrefusal, rfl, rfl⟩

/-- A refused call changes nothing but the failure that was asked for. -/
theorem eq_of_attempt_error {α : Type} {operation : Operation} {entry : α → Entry}
    {step : Recording → Except Refusal (α × Recording)} {error : SymbolError}
    (h : (attempt operation entry step).outcome recording = (.error error, after)) :
    after = { recording with failOn := after.failOn } := by
  obtain ⟨-, rfl | rfl⟩ := attempt_eq_error h
  · rfl
  · rfl

end DebugSymbols.Recording
