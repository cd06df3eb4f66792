import DebugSymbols.Proofs.Emit.Release
import DebugSymbols.Proofs.Emit.Validity
import DebugSymbols.Proofs.Sink.Injection

/-!
# A failure on demand cuts a relocation

If the recording is to fail an operation, a relocation stops at the first call of this operation:
the log is that of the same relocation without the failure up to this call, and the sink is given
up. If there is no such call, nothing changes.

An emission is a dialogue, so this is a fact about dialogues with a recording. What is needed of the
emitter is that the recording refuses none of its calls, or else the failure would hide a refusal.
-/

namespace DebugSymbols

open Place (outside)

/-! ## Dialogues with a recording -/

namespace Dialogue

open Recording (OnlyAdds Cut isCall_defineDocument isCall_issue)

variable {α : Type}

theorem onlyAdds_hold (dialogue : Dialogue α) : OnlyAdds (dialogue.hold recordingSink) := by
  induction dialogue with
  | done result => exact .lift result
  | define document next ih => exact .bind (isCall_defineDocument document).onlyAdds ih
  | issue command hopen next ih => exact .bind (isCall_issue command).onlyAdds fun _ => ih

/-- A dialogue is cut at the first call of the operation. -/
theorem cut_hold {operation : Operation} (dialogue : Dialogue α) {recording : Recording}
    (h : recording.Untouched operation) :
    Cut operation ((dialogue.hold recordingSink).outcome recording)
      ((dialogue.hold recordingSink).outcome (recording.failing operation)) := by
  induction dialogue generalizing recording with
  | done result =>
    rw [hold, Attempt.outcome_lift, Attempt.outcome_lift]
    exact .same h
  | define document next ih =>
    exact .bind ((isCall_defineDocument document).cut h)
      (fun handle _ hreached => ih handle hreached) fun handle => (next handle).onlyAdds_hold
  | issue command hopen next ih =>
    exact .bind ((isCall_issue command).cut h) (fun _ _ hreached => ih hreached)
      fun _ => next.onlyAdds_hold

end Dialogue

/-! ## Logs -/

/-- A log without the giving up at its end, if there is one. -/
def withoutAbort (log : List Entry) : List Entry :=
  if log.getLast? = some .aborted then log.dropLast else log

theorem withoutAbort_append_aborted (log : List Entry) :
    withoutAbort (log ++ [.aborted]) = log := by
  simp [withoutAbort]

theorem withoutAbort_append_close (log : List Entry) :
    withoutAbort (log ++ [.close]) = log ++ [.close] := by
  simp [withoutAbort]

/-- Up to a call that was accepted nothing is dropped from a log. -/
theorem prefix_withoutAbort {front log : List Entry} {entry : Entry} (hentry : entry ≠ .aborted)
    (h : front ++ [entry] <+: log) : front ++ [entry] <+: withoutAbort log := by
  obtain ⟨rest, rfl⟩ := h
  rw [withoutAbort]
  split
  · rename_i hlast
    -- what is dropped stands behind the call
    have hrest : rest ≠ [] := by
      rintro rfl
      rw [List.append_nil, List.getLast?_concat] at hlast
      exact hentry (Option.some.inj hlast)
    rw [List.dropLast_append_of_ne_nil hrest]
    exact List.prefix_append _ _
  · exact List.prefix_append _ _

/-- The calls before the first call of an operation. -/
theorem takeWhile_eq_front {operation : Operation} {front log : List Entry} {entry : Entry}
    (hfront : ∀ other ∈ front, other.operation? ≠ some operation)
    (hentry : entry.operation? = some operation) (h : front ++ [entry] <+: log) :
    log.takeWhile (·.operation? ≠ some operation) = front := by
  obtain ⟨rest, rfl⟩ := h
  rw [List.append_assoc, List.takeWhile_append_of_pos (by simpa using hfront)]
  simp [hentry]

/-! ## Relocations -/

/-- How a run into a recording compares with the one that is to fail an operation: if there is a
call of the operation in the log, the run ends with its failure, and the log up to there is followed
by the giving up; and otherwise both are the same. -/
structure CutAt (operation : Operation) (plain failed : Except SymbolError Summary × Recording) :
    Prop where
  of_mem : (∃ entry ∈ withoutAbort plain.2.entries.toList, entry.operation? = some operation) →
    failed.1 = .error (.sinkFailure operation .injected) ∧
      failed.2.entries.toList =
        (withoutAbort plain.2.entries.toList).takeWhile (·.operation? ≠ some operation) ++
          [.aborted]
  of_forall : (∀ entry ∈ withoutAbort plain.2.entries.toList,
      entry.operation? ≠ some operation) →
    failed.1 = plain.1 ∧ failed.2.entries = plain.2.entries

namespace Recording

variable {recording : Recording}

theorem toList_entries_giveUp (h : recording.aborted = false) :
    recording.giveUp.entries.toList = recording.entries.toList ++ [.aborted] := by
  rw [giveUp, h]
  exact toList_entries_record _ _

theorem prefix_giveUp (recording : Recording) :
    recording.entries.toList <+: recording.giveUp.entries.toList := by
  cases h : recording.aborted with
  | true =>
    rw [giveUp, h]
    exact List.prefix_refl _
  | false =>
    rw [toList_entries_giveUp h]
    exact List.prefix_append _ _

end Recording

namespace CutAt

variable {operation : Operation} {plain failed : Except SymbolError Summary × Recording}

/-- A run whose log goes on with a call of the operation was cut there. -/
theorem of_call {reached : Recording} {entry : Entry} (h : reached.Untouched operation)
    (hentry : entry.operation? = some operation)
    (hbegins : reached.entries.toList ++ [entry] <+: plain.2.entries.toList) :
    CutAt operation plain (.error (.sinkFailure operation .injected), reached.giveUp) := by
  have hne : entry ≠ .aborted := by
    rintro rfl
    cases hentry
  have hlog := prefix_withoutAbort hne hbegins
  constructor
  · intro _
    rw [takeWhile_eq_front h.operation?_ne hentry hlog]
    exact ⟨rfl, Recording.toList_entries_giveUp h.aborted_eq⟩
  · intro hnone
    have hmem : entry ∈ withoutAbort plain.2.entries.toList := hlog.subset (by simp)
    exact absurd hentry (hnone entry hmem)

/-- Two runs with the same log are the same, if there is no call of the operation in it. -/
theorem of_same (hlog : ∀ entry ∈ withoutAbort plain.2.entries.toList,
      entry.operation? ≠ some operation)
    (hresult : failed.1 = plain.1) (hentries : failed.2.entries = plain.2.entries) :
    CutAt operation plain failed where
  of_mem := by
    rintro ⟨entry, hmem, hentry⟩
    exact absurd hentry (hlog entry hmem)
  of_forall _ := ⟨hresult, hentries⟩

end CutAt

/-- Concluding only adds to the log. -/
theorem prefix_conclude (remapped : Nat)
    (outcome : Except SymbolError (Unit × Emission Unit) × Recording) :
    outcome.2.entries.toList <+: (recordingSink.conclude remapped outcome).2.entries.toList := by
  rcases outcome with ⟨error | ⟨_, ledger⟩, reached⟩
  · exact reached.prefix_giveUp
  · have hclose : reached.entries.toList <+:
        ((recordingSink.issue .close).outcome reached).2.entries.toList :=
      (Recording.isCall_issue .close).onlyAdds reached
    rw [Sink.conclude]
    generalize (recordingSink.issue .close).outcome reached = closed at hclose ⊢
    rcases closed with ⟨error | _, last⟩
    · exact hclose.trans last.prefix_giveUp
    · exact hclose

/-- Closing two sinks of which one is to fail an operation. -/
theorem cutAt_close {operation : Operation} (remapped : Nat) (ledger : Emission Unit)
    {last : Recording} (h : last.Untouched operation) (hat : last.At outside)
    (hfail : last.failOn = none) :
    CutAt operation (recordingSink.conclude remapped (.ok ((), ledger), last))
      (recordingSink.conclude remapped (.ok ((), ledger), last.failing operation)) := by
  obtain ⟨closed, hclose⟩ : ∃ closed,
      (recordingSink.issue .close).outcome last = (.ok (), closed) :=
    hat.issue (by simp [hfail]) rfl trivial
  have hcut : Recording.Cut operation ((recordingSink.issue .close).outcome last)
      ((recordingSink.issue .close).outcome (last.failing operation)) :=
    (Recording.isCall_issue .close).cut h
  have hlog := (Recording.issue_log hclose).1
  rw [Sink.conclude, Sink.conclude]
  rw [hclose] at hcut ⊢
  generalize (recordingSink.issue .close).outcome (last.failing operation) = failed at hcut ⊢
  cases hcut with
  | same h =>
    refine .of_same ?_ rfl rfl
    show ∀ entry ∈ withoutAbort closed.entries.toList, _
    have hwhole : withoutAbort closed.entries.toList = closed.entries.toList := by
      rw [hlog]
      exact withoutAbort_append_close _
    rw [hwhole]
    exact h.operation?_ne
  | cut h hentry hbegins => exact .of_call h hentry hbegins

/-- The conclusions of an emission and of the same one with a failure asked for. -/
theorem cutAt_conclude {operation : Operation} (remapped : Nat)
    {plain failed : Except SymbolError (Unit × Emission Unit) × Recording}
    (hcut : Recording.Cut operation plain failed)
    (hok : ∀ value, plain.1 = .ok value → plain.2.At outside ∧ plain.2.failOn = none)
    (herror : ∀ refusal, plain.1 = .error (.sinkFailure operation refusal) →
      ¬ plain.2.Untouched operation) :
    CutAt operation (recordingSink.conclude remapped plain)
      (recordingSink.conclude remapped failed) := by
  cases hcut with
  | refused h => exact absurd h (herror _ rfl)
  | @cut result last reached entry h hentry hbegins =>
    exact .of_call h hentry (hbegins.trans (prefix_conclude remapped (result, last)))
  | @same result last h =>
    cases result with
    | error error =>
      have hentries := Recording.toList_entries_giveUp h.aborted_eq
      have haborted : (last.failing operation).aborted = false := h.aborted_eq
      have hfailed : (last.failing operation).giveUp.entries.toList = last.giveUp.entries.toList :=
        (Recording.toList_entries_giveUp haborted).trans hentries.symm
      refine .of_same ?_ rfl (Array.toList_inj.1 hfailed)
      show ∀ entry ∈ withoutAbort last.giveUp.entries.toList, _
      rw [hentries, withoutAbort_append_aborted]
      exact h.operation?_ne
    | ok value =>
      obtain ⟨hat, hfail⟩ := hok value rfl
      exact cutAt_close remapped value.2 h hat hfail

/-- A recording refuses no call of an emission, but for documents that are too many. -/
theorem not_untouched_of_emit {options : Options} {names : Option Names} {tree : SymbolTree}
    {last : Emission Recording} {operation : Operation} {refusal : Refusal}
    (hemit : ((Emitter.recording options names).emit tree).outcome
      (Emission.start (Recording.start none)) = (.error (.sinkFailure operation refusal), last)) :
    ¬ last.sink.Untouched operation := by
  intro h
  have hjudged := Emitter.judged_emit options names tree
  rw [hemit] at hjudged
  cases hjudged with
  | fault hfault => exact hfault
  | full hidle hsize =>
    -- no document can have been defined, as that is the operation
    rw [h.documents_eq rfl] at hsize
    exact absurd hsize (by decide)

/-- An emission that came to its end leaves the recording between methods. -/
theorem at_outside_of_emit {options : Options} {names : Option Names} {tree : SymbolTree}
    {last : Emission Recording}
    (hemit : ((Emitter.recording options names).emit tree).outcome
      (Emission.start (Recording.start none)) = (.ok (), last)) :
    last.sink.At outside ∧ last.sink.failOn = none := by
  have hjudged := Emitter.judged_emit options names tree
  rw [hemit] at hjudged
  cases hjudged with
  | success hsound hidle => exact ⟨hidle.at_outside, hidle.failOn_eq⟩

/-- The outcomes of a relocation into a new recording, and into one that is to fail an operation. -/
theorem cutAt_relocate (options : Options) (names : Option Names) (tree : SymbolTree)
    (map : PathMap) (operation : Operation) :
    let emitter := Emitter.recording options names
    let plain := emitter.relocate tree map (Recording.start none)
    let failed := emitter.relocate tree map (Recording.start (some operation))
    CutAt operation (plain.result, plain.sink) (failed.result, failed.sink) := by
  intro emitter plain failed
  -- both emissions are one dialogue
  obtain ⟨dialogue, hdialogue⟩ := Emitter.Uniform.emit options names (tree.remap map).tree
    (Emission.start ())
  have hcut := dialogue.cut_hold (Recording.untouched_start operation)
  have hplain : Emission.split ((emitter.emit (tree.remap map).tree).outcome
      (Emission.start (Recording.start none))) = _ := hdialogue _ recordingSink _
  have hfailed : Emission.split ((emitter.emit (tree.remap map).tree).outcome
      (Emission.start (Recording.start (some operation)))) = _ := hdialogue _ recordingSink _
  have hplainEnd := emitter.relocate_eq_conclude tree map (Recording.start none)
  have hfailedEnd := emitter.relocate_eq_conclude tree map (Recording.start (some operation))
  rw [hplainEnd, hfailedEnd]
  refine cutAt_conclude _ (hplain ▸ hfailed ▸ hcut) ?_ ?_
  · intro value hvalue
    obtain ⟨_, hok, -⟩ := map_eq_ok_iff.1 hvalue
    exact at_outside_of_emit (Prod.ext hok rfl)
  · intro refusal herror
    exact not_untouched_of_emit (Prod.ext (map_eq_error_iff.1 herror) rfl)

/-- A failure on demand cuts a relocation at the first call of the operation. Let the log be that of
the relocation without the failure, without the giving up at its end. If there is a call of the
operation in the log, the relocation with the failure ends with the failure, and its log consists of
the calls before the first such call and the giving up. If there is none, result and log are those
without the failure. -/
theorem failure_cuts_relocation (options : Options) (names : Option Names) (tree : SymbolTree)
    (map : PathMap) (operation : Operation) :
    let emitter := Emitter.recording options names
    let plain := emitter.relocate tree map (Recording.start none)
    let failed := emitter.relocate tree map (Recording.start (some operation))
    let log := withoutAbort plain.sink.entries.toList
    ((∃ entry ∈ log, entry.operation? = some operation) →
        failed.result = .error (.sinkFailure operation .injected) ∧
          failed.sink.entries.toList =
            log.takeWhile (·.operation? ≠ some operation) ++ [.aborted]) ∧
      ((∀ entry ∈ log, entry.operation? ≠ some operation) →
        failed.result = plain.result ∧ failed.sink.entries = plain.sink.entries) := by
  intro emitter plain failed log
  have hcut := cutAt_relocate options names tree map operation
  exact ⟨hcut.of_mem, hcut.of_forall⟩

end DebugSymbols
