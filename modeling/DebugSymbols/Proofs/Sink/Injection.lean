import DebugSymbols.Proofs.Sink.Recording

/-!
# A failure on demand

A recording that fails the first call of an operation on demand is compared with one that does not.
Until that call both answer the same and keep the same log. At that call the work is cut, whatever
the other recording goes on to: `Cut` says so of two outcomes, and it is kept when more work
follows.
-/

namespace DebugSymbols

/-- The operation of a call that was accepted. -/
def Entry.operation? : Entry → Option Operation
  | defineDocument _ _ => some .defineDocument
  | setUserEntryPoint _ => some .setUserEntryPoint
  | openMethod _ => some .openMethod
  | closeMethod => some .closeMethod
  | openScope _ => some .openScope
  | closeScope _ => some .closeScope
  | defineSequencePoints _ _ => some .defineSequencePoints
  | defineLocalVariable _ => some .defineLocalVariable
  | defineConstant _ _ _ => some .defineConstant
  | setSymbolAttribute _ _ _ => some .setSymbolAttribute
  | close => some .close
  | aborted => none

theorem Command.operation?_entry (command : Command) :
    command.entry.operation? = some command.operation := by
  cases command <;> rfl

namespace Recording

variable {α β : Type} {operation : Operation} {recording : Recording}

/-- The recording that fails the next call of an operation. -/
def failing (operation : Operation) (recording : Recording) : Recording :=
  { recording with failOn := some operation }

/-- No failure was asked for, and no call of an operation was accepted so far; nor was the sink
given up. -/
structure Untouched (operation : Operation) (recording : Recording) : Prop where
  failOn_eq : recording.failOn = none
  aborted_eq : recording.aborted = false
  operation?_ne : ∀ entry ∈ recording.entries.toList, entry.operation? ≠ some operation
  documents_eq : operation = .defineDocument → recording.documents = #[]

theorem untouched_start (operation : Operation) : (start none).Untouched operation :=
  ⟨rfl, rfl, fun _ hmem => (nomatch hmem), fun _ => rfl⟩

/-! ## Calls -/

/-- A failure that was asked for has no influence on what the protocol allows. -/
theorem transition_failing (operation : Operation) (recording : Recording) (command : Command) :
    (recording.failing operation).transition command =
      (recording.transition command).map (failing operation) := by
  obtain ⟨entries, documents, method, rootScopes, scopes, finished, aborted, failOn⟩ := recording
  cases command with
  | setUserEntryPoint token => rfl
  | openMethod token => cases method <;> rfl
  | closeMethod =>
    cases method with
    | none => rfl
    | some token =>
      by_cases hscopes : scopes = [] <;> by_cases hroots : rootScopes = 1 <;>
        simp [transition, failing, inMethod, bind, Except.bind, Except.map, hscopes, hroots]
  | openScope start =>
    cases method with
    | none => rfl
    | some token =>
      by_cases hscopes : scopes = [] <;> by_cases hroots : rootScopes = 0 <;>
        simp [transition, failing, inMethod, bind, Except.bind, Except.map, hscopes, hroots]
  | closeScope stop =>
    cases method with
    | none => rfl
    | some token =>
      cases scopes with
      | nil => rfl
      | cons start outer =>
        by_cases hordered : stop < start <;>
          simp [transition, failing, inMethod, inScope, bind, Except.bind, Except.map, pure,
            Except.pure, hordered]
  | defineSequencePoints handle batch =>
    cases method with
    | none => rfl
    | some token =>
      by_cases hhandle : documents[handle.index]? = none <;> cases hbatch : batch.isConsistent <;>
        simp [transition, failing, inMethod, document?, bind, Except.bind, Except.map, hhandle,
          hbatch]
  | defineLocalVariable variable_ => cases method <;> cases scopes <;> rfl
  | defineConstant name value signature => cases method <;> cases scopes <;> rfl
  | setSymbolAttribute parent name data =>
    cases method with
    | none => rfl
    | some token =>
      by_cases hparent : parent = token <;>
        simp [transition, failing, inMethod, bind, Except.bind, Except.map, hparent]
  | close => cases method <;> rfl

theorem keepDocument_failing (operation : Operation) (recording : Recording) (document : Document) :
    keepDocument document (recording.failing operation) =
      (keepDocument document recording).map fun (handle, next) =>
        (handle, next.failing operation) := by
  by_cases hsize : recording.documents.size < UInt32.size <;>
    simp [keepDocument, failing, Except.map, hsize]

/-! ## Cuts -/

/-- How an outcome compares with the one with a failure asked for: they are the same, or the work
was cut at the first call of the operation. Without the failure this call is accepted, and the log
goes on with it, or refused. -/
inductive Cut (operation : Operation) :
    Except SymbolError α × Recording → Except SymbolError α × Recording → Prop
  | same {result : Except SymbolError α} {last : Recording} (h : last.Untouched operation) :
      Cut operation (result, last) (result, last.failing operation)
  | cut {result : Except SymbolError α} {last reached : Recording} {entry : Entry}
      (h : reached.Untouched operation) (hentry : entry.operation? = some operation)
      (hbegins : reached.entries.toList ++ [entry] <+: last.entries.toList) :
      Cut operation (result, last) (.error (.sinkFailure operation .injected), reached)
  | refused {refusal : Refusal} {reached : Recording} (h : reached.Untouched operation) :
      Cut operation (.error (.sinkFailure operation refusal), reached)
        (.error (.sinkFailure operation .injected), reached)

/-- Whether an attempt only adds to the log. -/
def OnlyAdds (attempt : Attempt Recording α) : Prop :=
  ∀ recording, recording.entries.toList <+: (attempt.outcome recording).2.entries.toList

theorem OnlyAdds.lift (result : Except SymbolError α) : OnlyAdds (Attempt.lift result) := by
  intro recording
  simp [Attempt.outcome_lift]

theorem OnlyAdds.bind {attempt : Attempt Recording α} {next : α → Attempt Recording β}
    (hattempt : OnlyAdds attempt) (hnext : ∀ value, OnlyAdds (next value)) :
    OnlyAdds (attempt >>= next) := by
  intro recording
  have hreached := hattempt recording
  rw [Attempt.outcome_bind]
  generalize attempt.outcome recording = outcome at hreached ⊢
  rcases outcome with ⟨_ | value, reached⟩
  · exact hreached
  · exact hreached.trans (hnext value reached)

/-- Work that is cut stays cut when more follows. -/
theorem Cut.bind {attempt : Attempt Recording α} {next : α → Attempt Recording β}
    (hattempt : Cut operation (attempt.outcome recording)
      (attempt.outcome (recording.failing operation)))
    (hnext : ∀ value reached, reached.Untouched operation →
      Cut operation ((next value).outcome reached)
        ((next value).outcome (reached.failing operation)))
    (hadds : ∀ value, OnlyAdds (next value)) :
    Cut operation ((attempt >>= next).outcome recording)
      ((attempt >>= next).outcome (recording.failing operation)) := by
  rw [Attempt.outcome_bind, Attempt.outcome_bind]
  generalize attempt.outcome recording = plain at hattempt ⊢
  generalize attempt.outcome (recording.failing operation) = failed at hattempt ⊢
  cases hattempt with
  | @same result last h =>
    cases result with
    | ok value => exact hnext value last h
    | error error => exact .same h
  | @cut result last reached entry h hentry hbegins =>
    cases result with
    | ok value => exact .cut h hentry (hbegins.trans (hadds value last))
    | error error => exact .cut h hentry hbegins
  | refused h => exact .refused h

/-! ## The calls of a recording -/

/-- A call to a recording that is to fail an operation; when that happens, nothing is left of the
demand. -/
theorem outcome_attempt_failing {called : Operation} {entry : α → Entry}
    {step : Recording → Except Refusal (α × Recording)} (hfail : recording.failOn = none) :
    (attempt called entry step).outcome (recording.failing operation) =
      if recording.finished then
        (.error (.sinkFailure called .alreadyClosed), recording.failing operation)
      else if operation = called then (.error (.sinkFailure called .injected), recording)
      else
        match step (recording.failing operation) with
        | .error refusal => (.error (.sinkFailure called refusal), recording.failing operation)
        | .ok (answer, next) => (.ok answer, next.record (entry answer)) := by
  have hspent : { recording.failing operation with failOn := none } = recording := by
    rw [← hfail]
    rfl
  have hdemand : (recording.failing operation).failOn = some called ↔ operation = called :=
    Option.some_inj
  rw [attempt, Attempt.outcome_ofOutcome, hspent]
  simp only [hdemand]
  rfl

/-- The data of a call: its entry is one of its operation, and its step changes neither the log nor
what was asked for, nor does it depend on that. -/
structure IsCall (called : Operation) (entry : α → Entry)
    (step : Recording → Except Refusal (α × Recording)) : Prop where
  operation?_eq : ∀ answer, (entry answer).operation? = some called
  frame : ∀ {recording answer next}, step recording = .ok (answer, next) →
    next.entries = recording.entries ∧ next.failOn = recording.failOn ∧
      next.aborted = recording.aborted ∧
        (called ≠ .defineDocument → next.documents = recording.documents)
  failing_eq : ∀ operation recording, step (recording.failing operation) =
    (step recording).map fun (answer, next) => (answer, next.failing operation)

namespace IsCall

variable {called : Operation} {entry : α → Entry}
  {step : Recording → Except Refusal (α × Recording)}

/-- An accepted call adds its entry to the log. -/
theorem toList_entries (h : IsCall called entry step) {answer : α} {next : Recording}
    (hstep : step recording = .ok (answer, next)) :
    (next.record (entry answer)).entries.toList = recording.entries.toList ++ [entry answer] := by
  rw [toList_entries_record, (h.frame hstep).1]

theorem onlyAdds (h : IsCall called entry step) : OnlyAdds (attempt called entry step) := by
  intro recording
  rw [attempt, Attempt.outcome_ofOutcome]
  split
  · exact List.prefix_refl _
  · split
    · exact List.prefix_refl _
    · cases hstep : step recording with
      | error refusal => exact List.prefix_refl _
      | ok answered =>
        dsimp only
        rw [h.toList_entries hstep]
        exact List.prefix_append _ _

/-- An accepted call of another operation leaves a recording untouched. -/
theorem untouched_record (h : IsCall called entry step) (hrecording : recording.Untouched operation)
    (hne : called ≠ operation) {answer : α} {next : Recording}
    (hstep : step recording = .ok (answer, next)) :
    (next.record (entry answer)).Untouched operation := by
  obtain ⟨-, hfail, haborted, hdocuments⟩ := h.frame hstep
  refine ⟨hfail.trans hrecording.failOn_eq, haborted.trans hrecording.aborted_eq, ?_, ?_⟩
  · rw [h.toList_entries hstep, List.forall_mem_append, List.forall_mem_singleton,
      h.operation?_eq]
    exact ⟨hrecording.operation?_ne, fun heq => hne (Option.some.inj heq)⟩
  · intro hdefine
    rw [documents_record, hdocuments (fun hcalled => hne (hcalled.trans hdefine.symm))]
    exact hrecording.documents_eq hdefine

/-- A call is cut if it is one of the operation, and otherwise answered the same. -/
theorem cut (h : IsCall called entry step) (hrecording : recording.Untouched operation) :
    Cut operation ((attempt called entry step).outcome recording)
      ((attempt called entry step).outcome (recording.failing operation)) := by
  rw [outcome_attempt hrecording.failOn_eq, outcome_attempt_failing hrecording.failOn_eq]
  cases hfinished : recording.finished with
  | true => exact .same hrecording
  | false =>
    rw [if_neg Bool.false_ne_true, if_neg Bool.false_ne_true]
    by_cases hcalled : operation = called
    · subst hcalled
      rw [if_pos rfl]
      cases hstep : step recording with
      | error refusal => exact .refused hrecording
      | ok answered =>
        have hentries := h.toList_entries hstep
        exact .cut hrecording (h.operation?_eq answered.1) (hentries ▸ List.prefix_refl _)
    · rw [if_neg hcalled, h.failing_eq]
      cases hstep : step recording with
      | error refusal => exact .same hrecording
      | ok answered => exact .same (h.untouched_record hrecording (Ne.symm hcalled) hstep)

end IsCall

theorem isCall_defineDocument (document : Document) :
    IsCall .defineDocument (Entry.defineDocument document.path) (keepDocument document) where
  operation?_eq _ := rfl
  frame h := by
    rw [keepDocument] at h
    split at h
    · cases h
      exact ⟨rfl, rfl, rfl, fun hne => absurd rfl hne⟩
    · cases h
  failing_eq operation recording := keepDocument_failing operation recording document

theorem isCall_issue (command : Command) :
    IsCall command.operation (fun _ => command.entry) (carryOut command) where
  operation?_eq _ := command.operation?_entry
  frame h := by
    obtain ⟨next, hnext, heq⟩ := map_eq_ok_iff.1 h
    cases heq
    obtain ⟨-, rfl⟩ := transition_eq_ok_iff.1 hnext
    simp
  failing_eq operation recording := by
    rw [carryOut, carryOut, transition_failing]
    cases recording.transition command <;> rfl

end Recording

end DebugSymbols
