import Mathlib.Tactic.Choose
import DebugSymbols.Emit.Emitter
import DebugSymbols.Proofs.Attempt

/-!
# An emitter says the same to every sink

What an emitter says to a sink next depends on the answers that it got so far, and on nothing else
about the sink. So an emission is one dialogue, which is held with one sink or another: a tree of
calls that branches at the handles answered. A failed call ends it. The end of the sink is not part
of it.

What happens with different sinks, or with a sink that is watched, can then be shown by induction on
dialogues, without a look at the emitter.
-/

namespace DebugSymbols

/-! ## Dialogues -/

/-- Calls to a sink up to a result, each of them depending on the answers before. -/
inductive Dialogue (α : Type)
  | done (result : Except SymbolError α)
  | define (document : Document) (next : DocumentHandle → Dialogue α)
  | issue (command : Command) (hopen : command ≠ .close) (next : Dialogue α)

namespace Dialogue

variable {σ α β : Type}

/-- Holds a dialogue with a sink, up to the first call that fails. -/
def hold (sink : Sink σ) : Dialogue α → Attempt σ α
  | done result => Attempt.lift result
  | define document next => do
    let handle ← sink.defineDocument document
    (next handle).hold sink
  | issue command _ next => do
    sink.issue command
    next.hold sink

/-- The dialogue that goes on with the result of another one. -/
def bind : Dialogue α → (α → Dialogue β) → Dialogue β
  | done (.ok value), next => next value
  | done (.error error), _ => done (.error error)
  | define document rest, next => define document fun handle => (rest handle).bind next
  | issue command hopen rest, next => issue command hopen (rest.bind next)

theorem outcome_hold_bind (sink : Sink σ) (dialogue : Dialogue α) (next : α → Dialogue β)
    (state : σ) :
    ((dialogue.bind next).hold sink).outcome state =
      (dialogue.hold sink >>= fun value => (next value).hold sink).outcome state := by
  induction dialogue generalizing state with
  | done result =>
    rw [hold, Attempt.outcome_bind, Attempt.outcome_lift]
    cases result with
    | ok value => rfl
    | error error => exact Attempt.outcome_lift _ _
  | define document rest ih =>
    rw [bind, hold, hold, bind_assoc, Attempt.outcome_bind, Attempt.outcome_bind]
    rcases (sink.defineDocument document).outcome state with ⟨_ | handle, reached⟩
    · rfl
    · exact ih handle reached
  | issue command hopen rest ih =>
    rw [bind, hold, hold, bind_assoc, Attempt.outcome_bind, Attempt.outcome_bind]
    rcases (sink.issue command).outcome state with ⟨_ | _, reached⟩
    · rfl
    · exact ih reached

end Dialogue

/-! ## The steps of a script -/

/-- Whether a step may stand in the script of a scope. -/
def Step.IsOfScope : Step → Prop
  | .tell _ | .fail _ | .issue (.openScope _) | .issue (.closeScope _)
  | .issue (.defineLocalVariable _) | .issue (.defineConstant _ _ _) => True
  | _ => False

namespace Scope

mutual

/-- In the script of a scope there are steps of scopes only, up to what follows it. -/
theorem isOfScope_of_mem_scriptThen (context : ScopeContext) (extra : List Constant)
    (depth : Nat) :
    ∀ (scope : Scope) (next : List Step), ∀ step ∈ scope.scriptThen context extra depth next,
      step.IsOfScope ∨ step ∈ next
  | ⟨span, locals, constants, children⟩, next => by
    rw [scriptThen]
    have hnext : ∀ step ∈ next, step.IsOfScope ∨ step ∈ next := fun _ => Or.inr
    split
    · exact List.forall_mem_cons.2 ⟨Or.inl trivial, hnext⟩
    · split
      · exact List.forall_mem_cons.2 ⟨Or.inl trivial, hnext⟩
      · rename_i stop _
        simp only [List.forall_mem_cons, List.forall_mem_append, List.forall_mem_map]
        refine ⟨Or.inl trivial, Or.inl trivial, fun _ _ => Or.inl trivial,
          ⟨fun _ _ => Or.inl trivial, fun _ _ => Or.inl trivial⟩, fun step hstep => ?_⟩
        rcases isOfScope_of_mem_scriptsThen context (depth + 1) children _ step hstep with
          hscope | hend
        · exact Or.inl hscope
        · rcases List.mem_cons.1 hend with rfl | hrest
          · exact Or.inl trivial
          · exact Or.inr hrest

/-- In the scripts of scopes there are steps of scopes only, up to what follows them. -/
theorem isOfScope_of_mem_scriptsThen (context : ScopeContext) (depth : Nat) :
    ∀ (scopes : List Scope) (next : List Step), ∀ step ∈ scriptsThen context depth scopes next,
      step.IsOfScope ∨ step ∈ next
  | [], _, _, hstep => Or.inr hstep
  | scope :: scopes, next, step, hstep => by
    rw [scriptsThen] at hstep
    rcases isOfScope_of_mem_scriptThen context [] depth scope _ step hstep with hscope | hrest
    · exact Or.inl hscope
    · exact isOfScope_of_mem_scriptsThen context depth scopes next step hrest

end

end Scope

/-- The script of a method does not end the sink. -/
theorem Method.open_script (limit : Nat) (batches : List (DocumentHandle × Batch))
    (blobs : List (List UInt8)) (method : Method) :
    ∀ step ∈ method.script limit batches blobs, step ≠ .issue .close := by
  have hscope : ∀ step : Step, step.IsOfScope → step ≠ .issue .close := by
    rintro _ hstep rfl
    exact hstep
  rw [script, List.forall_mem_cons, List.forall_mem_append, List.forall_mem_map]
  refine ⟨by simp, by simp, fun step hstep => ?_⟩
  rcases Scope.isOfScope_of_mem_scriptThen _ _ _ _ _ step hstep with hstep | hback
  · exact hscope step hstep
  · rcases List.mem_append.1 hback with hblob | hlast
    · obtain ⟨blob, -, rfl⟩ := List.mem_map.1 hblob
      simp
    · rw [List.mem_singleton.1 hlast]
      simp

/-! ## Computations of an emitter -/

namespace Emission

variable {σ α : Type}

/-- What an emission knows without its sink. -/
def ledger (emission : Emission σ) : Emission Unit :=
  ⟨emission.registered, emission.stats, emission.notices, ()⟩

/-- The emission that knows so much and has a sink in the given state. -/
def withSink (ledger : Emission Unit) (state : σ) : Emission σ :=
  ⟨ledger.registered, ledger.stats, ledger.notices, state⟩

/-- An outcome with the sink apart from the rest, which is of no importance after a failure. -/
def split (outcome : Except SymbolError α × Emission σ) :
    Except SymbolError (α × Emission Unit) × σ :=
  (outcome.1.map (·, outcome.2.ledger), outcome.2.sink)

end Emission

namespace Emitter

variable {σ α β : Type}

/-- A document whose path is known has the handle of its path; a differing kind gives a notice. -/
theorem outcome_register_of_known (emitter : Emitter σ) {document : Document}
    {registration : Registration} {emission : Emission σ}
    (hknown : emission.registered.get? document.path = some registration) :
    (emitter.register document).outcome emission =
      (do
        if !registration.document.sameKind document then tell (.kindMismatch document.path)
        return registration.handle : Attempt (Emission σ) DocumentHandle).outcome emission := by
  rw [register, Attempt.outcome_bind, Attempt.outcome_get]
  dsimp only
  rw [hknown]

/-- A document whose path is not known is defined. -/
theorem outcome_register_of_new (emitter : Emitter σ) {document : Document}
    {emission : Emission σ} (hnew : emission.registered.get? document.path = none) :
    (emitter.register document).outcome emission =
      (emitter.define document).outcome emission := by
  rw [register, Attempt.outcome_bind, Attempt.outcome_get]
  dsimp only
  rw [hnew]

/-- A computation with any sink is uniform if it is the same dialogue with every sink. -/
def Uniform (attempt : ∀ σ : Type, Sink σ → Attempt (Emission σ) α) : Prop :=
  ∀ ledger : Emission Unit, ∃ dialogue : Dialogue (α × Emission Unit),
    ∀ (σ : Type) (sink : Sink σ) (state : σ),
      Emission.split ((attempt σ sink).outcome (ledger.withSink state)) =
        (dialogue.hold sink).outcome state

namespace Uniform

theorem bind {attempt : ∀ σ : Type, Sink σ → Attempt (Emission σ) α}
    {next : α → ∀ σ : Type, Sink σ → Attempt (Emission σ) β} (hattempt : Uniform attempt)
    (hnext : ∀ value, Uniform (next value)) :
    Uniform fun σ sink => attempt σ sink >>= fun value => next value σ sink := by
  intro ledger
  obtain ⟨dialogue, hdialogue⟩ := hattempt ledger
  -- the dialogues that may follow, by the result so far
  choose rest hrest using fun reached : α × Emission Unit => hnext reached.1 reached.2
  refine ⟨dialogue.bind rest, fun σ sink state => ?_⟩
  rw [Dialogue.outcome_hold_bind, Attempt.outcome_bind, Attempt.outcome_bind, ← hdialogue]
  rcases (attempt σ sink).outcome (ledger.withSink state) with ⟨_ | value, reached⟩
  · rfl
  · exact hrest (value, reached.ledger) σ sink reached.sink

/-- What a computation makes of everything but the sink is uniform. -/
theorem of_ledger {attempt : ∀ σ : Type, Sink σ → Attempt (Emission σ) α}
    (answer : Emission Unit → Except SymbolError (α × Emission Unit))
    (h : ∀ ledger σ (sink : Sink σ) state,
      Emission.split ((attempt σ sink).outcome (ledger.withSink state)) = (answer ledger, state)) :
    Uniform attempt := by
  intro ledger
  refine ⟨.done (answer ledger), fun σ sink state => ?_⟩
  rw [h, Dialogue.hold, Attempt.outcome_lift]

theorem pure (value : α) : Uniform fun _ _ => Pure.pure value :=
  of_ledger (fun ledger => .ok (value, ledger)) fun _ _ _ _ => rfl

theorem lift (result : Except SymbolError α) : Uniform fun _ _ => Attempt.lift result := by
  refine of_ledger (fun ledger => result.map (·, ledger)) fun ledger σ sink state => ?_
  rw [Attempt.outcome_lift]
  rfl

theorem modify (change : Emission Unit → Emission Unit) :
    Uniform fun σ _ => (MonadState.modifyGet fun emission : Emission σ =>
      ((), (change emission.ledger).withSink emission.sink) : Attempt (Emission σ) Unit) :=
  of_ledger (fun ledger => .ok ((), change ledger)) fun _ _ _ _ => rfl

theorem tell (notice : Notice) : Uniform fun _ _ => Emitter.tell notice :=
  modify fun ledger => { ledger with notices := ledger.notices.push notice }

/-- An attempt on the sink leaves everything else as it is. -/
theorem outcome_onSink_withSink {σ : Type} (step : Attempt σ α) (ledger : Emission Unit)
    (state : σ) :
    (onSink step).outcome (ledger.withSink state) =
      ((step.outcome state).1, ledger.withSink (step.outcome state).2) := rfl

theorem onSink_issue (command : Command) (hopen : command ≠ .close) :
    Uniform fun _ sink => onSink (sink.issue command) := by
  intro ledger
  refine ⟨.issue command hopen (.done (.ok ((), ledger))), fun σ sink state => ?_⟩
  rw [Dialogue.hold, Attempt.outcome_bind, outcome_onSink_withSink]
  rcases (sink.issue command).outcome state with ⟨_ | _, reached⟩ <;> rfl

theorem onSink_defineDocument (document : Document) :
    Uniform fun _ sink => onSink (sink.defineDocument document) := by
  intro ledger
  refine ⟨.define document fun handle => .done (.ok (handle, ledger)), fun σ sink state => ?_⟩
  rw [Dialogue.hold, Attempt.outcome_bind, outcome_onSink_withSink]
  rcases (sink.defineDocument document).outcome state with ⟨_ | handle, reached⟩ <;> rfl

/-! ## The parts of an emission -/

variable (options : Options) (names : Option Names)

theorem issue (command : Command) (hopen : command ≠ .close) :
    Uniform fun _ sink => (Emitter.mk sink options names).issue command := by
  apply bind (onSink_issue command hopen)
  intro _
  exact modify fun ledger => { ledger with stats := ledger.stats.count command }

theorem define (document : Document) :
    Uniform fun _ sink => (Emitter.mk sink options names).define document := by
  apply bind (onSink_defineDocument document)
  intro handle
  apply bind (tell (.registered document.path handle))
  intro _
  have hremember := modify fun ledger => { ledger with
    registered := ledger.registered.insert document.path ⟨handle, document⟩
    stats := { ledger.stats with documentsRegistered := ledger.stats.documentsRegistered + 1 } }
  exact bind hremember fun _ => pure handle

/-- What a path is known for does not depend on the sink. -/
theorem register (document : Document) :
    Uniform fun _ sink => (Emitter.mk sink options names).register document := by
  have hknown : ∀ registration : Registration, Uniform fun σ _ =>
      (do
        if !registration.document.sameKind document then Emitter.tell (.kindMismatch document.path)
        return registration.handle : Attempt (Emission σ) DocumentHandle) := by
    intro registration
    split
    · exact bind (tell _) fun _ => pure registration.handle
    · exact pure registration.handle
  intro ledger
  cases hregistered : ledger.registered.get? document.path with
  | some registration =>
    obtain ⟨dialogue, hdialogue⟩ := hknown registration ledger
    refine ⟨dialogue, fun σ sink state => ?_⟩
    rw [← hdialogue]
    exact congrArg _ (outcome_register_of_known _ hregistered)
  | none =>
    obtain ⟨dialogue, hdialogue⟩ := define options names document ledger
    refine ⟨dialogue, fun σ sink state => ?_⟩
    rw [← hdialogue]
    exact congrArg _ (outcome_register_of_new _ hregistered)

/-- A script that does not end the sink is uniform. -/
theorem perform (steps : List Step) (hopen : ∀ step ∈ steps, step ≠ .issue .close) :
    Uniform fun _ sink => (Emitter.mk sink options names).perform steps := by
  induction steps with
  | nil => exact pure ()
  | cons step steps ih =>
    rw [List.forall_mem_cons] at hopen
    have hrest := ih hopen.2
    cases step with
    | tell notice => exact bind (tell notice) fun _ => hrest
    | issue command =>
      have hcommand : command ≠ .close := fun h => hopen.1 (congrArg _ h)
      exact bind (issue options names command hcommand) fun _ => hrest
    | fail error => exact lift (.error error)

theorem gatherLines (tree : SymbolTree) (method : Token) (lines : List LineGroup)
    (batches : List (DocumentHandle × Batch)) :
    Uniform fun _ sink =>
      (Emitter.mk sink options names).gatherLines tree method lines batches := by
  induction lines generalizing batches with
  | nil => exact pure batches
  | cons group lines ih =>
    simp only [Emitter.gatherLines]
    split
    · exact ih batches
    · apply bind (lift (documentOf tree method group.document))
      intro document
      apply bind (register options names document)
      intro handle
      exact ih (gather handle group.points batches)

/-- The label of a method does not depend on the sink. -/
theorem tell_label (notice : String → Notice) (token : Token) :
    Uniform fun _ sink => Emitter.tell (notice ((Emitter.mk sink options names).label token)) := by
  cases names with
  | none => exact tell (notice token.text)
  | some names => exact tell (notice (names.label token))

theorem emitMethod (tree : SymbolTree) (method : Method) :
    Uniform fun _ sink => (Emitter.mk sink options names).emitMethod tree method := by
  apply bind (lift (method.validate options))
  intro _
  apply bind (gatherLines options names tree method.token method.lines [])
  intro batches
  apply bind (lift method.blobs)
  intro blobs
  apply bind (tell_label options names (.emitting · method.pointCount batches.length) method.token)
  intro _
  exact perform options names _ (method.open_script options.maxScopeDepth batches blobs)

theorem emitMethods (tree : SymbolTree) (methods : List Method) :
    Uniform fun _ sink => (Emitter.mk sink options names).emitMethods tree methods := by
  induction methods with
  | nil => exact pure ()
  | cons method methods ih => exact bind (emitMethod options names tree method) fun _ => ih

theorem entryScript (tree : SymbolTree) :
    Uniform fun _ sink =>
      let emitter := Emitter.mk sink options names
      emitter.perform (emitter.entryScript tree) := by
  cases hentry : tree.entryPoint with
  | none =>
    simp only [Emitter.entryScript, hentry]
    exact pure ()
  | some token =>
    cases hwanted : options.emitEntryPoint with
    | false =>
      simp only [Emitter.entryScript, hentry, hwanted]
      exact pure ()
    | true =>
      simp only [Emitter.entryScript, hentry, hwanted]
      apply bind (tell_label options names .entryPoint token)
      intro _
      exact perform options names [.issue (.setUserEntryPoint token)] (by simp)

/-- Telling a tree is the same dialogue with every sink. -/
theorem emit (tree : SymbolTree) :
    Uniform fun _ sink => (Emitter.mk sink options names).emit tree :=
  bind (entryScript options names tree) fun _ => emitMethods options names tree tree.methods

end Uniform

end Emitter

end DebugSymbols
