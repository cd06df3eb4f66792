import DebugSymbols.Proofs.Emit.History
import DebugSymbols.Proofs.Emit.Verdict
import DebugSymbols.Proofs.Sink.Injection

/-!
# The counters of an emitter

An emitter counts what the sink accepts, each counter at the place where its calls are made. Any of
these calls may fail, and an emitter may go on after a failure. Its counters are those of the log of
the sink all the same, because a call is counted exactly if it is accepted.
-/

namespace DebugSymbols

/-- The number of accepted calls of an operation in a log. -/
def callsOf (operation : Operation) (log : List Entry) : Nat :=
  log.countP fun entry => entry.operation? = some operation

theorem callsOf_append (operation : Operation) (front back : List Entry) :
    callsOf operation (front ++ back) = callsOf operation front + callsOf operation back :=
  List.countP_append

namespace EmitStats

instance : Add EmitStats where
  add a b :=
    ⟨a.methods + b.methods, a.documentsRegistered + b.documentsRegistered,
      a.sequencePoints + b.sequencePoints, a.batches + b.batches, a.scopes + b.scopes,
      a.locals + b.locals, a.constants + b.constants, a.attributes + b.attributes⟩

theorem add_def (a b : EmitStats) :
    a + b = ⟨a.methods + b.methods, a.documentsRegistered + b.documentsRegistered,
      a.sequencePoints + b.sequencePoints, a.batches + b.batches, a.scopes + b.scopes,
      a.locals + b.locals, a.constants + b.constants, a.attributes + b.attributes⟩ := rfl

/-- What a log holds of everything that is counted. -/
def ofLog (log : List Entry) : EmitStats where
  methods := callsOf .closeMethod log
  documentsRegistered := callsOf .defineDocument log
  sequencePoints := ((log.filterMap Entry.batch?).flatMap (·.2.points)).length
  batches := callsOf .defineSequencePoints log
  scopes := callsOf .closeScope log
  locals := callsOf .defineLocalVariable log
  constants := callsOf .defineConstant log
  attributes := callsOf .setSymbolAttribute log

theorem ofLog_append (front back : List Entry) :
    ofLog (front ++ back) = ofLog front + ofLog back := by
  simp only [ofLog, add_def, callsOf_append, List.filterMap_append, List.flatMap_append,
    List.length_append]

/-- What an accepted command counts is what its entry adds. -/
theorem count_eq_add (stats : EmitStats) {command : Command}
    (hbatch : ∀ handle batch, command = .defineSequencePoints handle batch →
      batch.isConsistent = true) :
    stats.count command = stats + ofLog [command.entry] := by
  cases command with
  | defineSequencePoints handle batch =>
    have hpoints : (ofLog [.defineSequencePoints handle batch]).sequencePoints =
        batch.points.length := congrArg List.length (List.append_nil batch.points)
    rw [add_def, Command.entry, hpoints, Batch.length_points (hbatch handle batch rfl)]
    rfl
  | _ => rfl

end EmitStats

/-! ## Emissions -/

/-- The counters are those of the log. -/
def Emission.Counted (emission : Emission Recording) : Prop :=
  emission.stats = .ofLog emission.sink.entries.toList

theorem Emission.counted_start (failOn : Option Operation) :
    (Emission.start (Recording.start failOn)).Counted := rfl

namespace Emitter

open Attempt (Keeps)

variable (options : Options) (names : Option Names)

theorem counted_tell (notice : Notice) : Keeps Emission.Counted (tell notice) := fun _ h => h

/-- A command is counted exactly if it is accepted. -/
theorem counted_issue (command : Command) :
    Keeps Emission.Counted ((Emitter.recording options names).issue command) := by
  intro emission h
  have hsink : (onSink (recordingSink.issue command)).outcome emission =
      (((recordingSink.issue command).outcome emission.sink).1,
        { emission with sink := ((recordingSink.issue command).outcome emission.sink).2 }) := rfl
  show Emission.Counted ((onSink (recordingSink.issue command) >>= _).outcome emission).2
  rw [Attempt.outcome_bind, hsink]
  rcases hissue : (recordingSink.issue command).outcome emission.sink with ⟨error | _, after⟩
  · obtain ⟨-, hentries, -⟩ := Recording.attempt_error_log hissue
    exact h.trans (congrArg _ (congrArg Array.toList hentries).symm)
  · obtain ⟨-, -, hallowed, -⟩ := Recording.issue_eq_ok_iff.1 hissue
    obtain ⟨hentries, -⟩ := Recording.issue_log hissue
    have hbatch : ∀ handle batch, command = .defineSequencePoints handle batch →
        batch.isConsistent = true := by
      rintro handle batch rfl
      exact hallowed.2.2
    show emission.stats.count command = .ofLog after.entries.toList
    rw [hentries, EmitStats.ofLog_append, ← h, EmitStats.count_eq_add _ hbatch]

/-- A document is counted exactly if it is accepted. -/
theorem counted_define (document : Document) :
    Keeps Emission.Counted ((Emitter.recording options names).define document) := by
  intro emission h
  rw [outcome_define]
  rcases hdefine : (recordingSink.defineDocument document).outcome emission.sink with
    ⟨error | handle, after⟩
  · obtain ⟨-, hentries, -⟩ := Recording.attempt_error_log hdefine
    exact h.trans (congrArg _ (congrArg Array.toList hentries).symm)
  · obtain ⟨-, hentries, -⟩ := Recording.defineDocument_log hdefine
    show { emission.stats with documentsRegistered := emission.stats.documentsRegistered + 1 } =
      EmitStats.ofLog after.entries.toList
    rw [hentries, EmitStats.ofLog_append, ← h]
    rfl

theorem counted_register (document : Document) :
    Keeps Emission.Counted ((Emitter.recording options names).register document) := by
  intro emission h
  cases hregistered : emission.registered.get? document.path with
  | some registration =>
    rw [outcome_register_of_known _ hregistered]
    split
    · exact (counted_tell _).bind (fun _ => .pure _) emission h
    · exact h
  | none =>
    rw [outcome_register_of_new _ hregistered]
    exact counted_define options names document emission h

theorem counted_gatherLines (tree : SymbolTree) (method : Token) (lines : List LineGroup)
    (batches : List (DocumentHandle × Batch)) :
    Keeps Emission.Counted
      ((Emitter.recording options names).gatherLines tree method lines batches) := by
  induction lines generalizing batches with
  | nil => exact .pure batches
  | cons group lines ih =>
    rw [gatherLines]
    split
    · exact ih batches
    · exact .bind (.lift _) fun document =>
        .bind (counted_register options names document) fun _ => ih _

theorem counted_perform (steps : List Step) :
    Keeps Emission.Counted ((Emitter.recording options names).perform steps) := by
  induction steps with
  | nil => exact .pure ()
  | cons step steps ih =>
    cases step with
    | tell notice => exact (counted_tell notice).bind fun _ => ih
    | issue command => exact (counted_issue options names command).bind fun _ => ih
    | fail error => exact .lift (.error error)

theorem counted_emitMethod (tree : SymbolTree) (method : Method) :
    Keeps Emission.Counted ((Emitter.recording options names).emitMethod tree method) := by
  refine .bind (.lift _) fun _ => ?_
  refine .bind (counted_gatherLines options names tree method.token method.lines []) fun _ => ?_
  refine .bind (.lift _) fun _ => ?_
  exact .bind (counted_tell _) fun _ => counted_perform options names _

theorem counted_emitMethods (tree : SymbolTree) (methods : List Method) :
    Keeps Emission.Counted ((Emitter.recording options names).emitMethods tree methods) := by
  induction methods with
  | nil => exact .pure ()
  | cons method methods ih => exact (counted_emitMethod options names tree method).bind fun _ => ih

theorem counted_carryOut (task : Task) :
    Keeps Emission.Counted ((Emitter.recording options names).carryOut task) := by
  cases task with
  | emit tree =>
    exact .bind (counted_perform options names _) fun _ =>
      counted_emitMethods options names tree tree.methods
  | emitMethod tree method => exact counted_emitMethod options names tree method

/-- Whatever becomes of the tasks of a history, the counters are those of the log. -/
theorem counted_history (tasks : List Task) {emission : Emission Recording}
    (h : emission.Counted) :
    ((Emitter.recording options names).history tasks emission).Counted :=
  List.foldlRecOn tasks _ (motive := Emission.Counted) h fun reached hreached task _ =>
    counted_carryOut options names task reached hreached

end Emitter

end DebugSymbols
