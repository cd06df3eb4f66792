import DebugSymbols.Proofs.Emit.Totals
import DebugSymbols.Proofs.Remap

/-!
# The points that an emitter counts

An emitter that has told a method to the end has counted all of its sequence points, whatever the
sink is and whatever handles it gives out. The points of the line groups are gathered in batches, of
which there may be fewer than there are documents, and a batch is counted when it is told. So the
summary of a relocation has the number of points of all line groups of the tree.
-/

namespace DebugSymbols

/-! ## Scripts -/

/-- The number of points that a step tells. -/
def Step.pointCount : Step → Nat
  | .issue (.defineSequencePoints _ batch) => batch.length
  | _ => 0

theorem Step.pointCount_of_isOfScope {step : Step} (h : step.IsOfScope) : step.pointCount = 0 := by
  cases step with
  | tell notice => rfl
  | fail error => rfl
  | issue command =>
    cases command with
    | defineSequencePoints handle batch => exact h.elim
    | _ => rfl

/-- The script of a scope tells no points. -/
theorem Scope.sum_pointCount_scriptThen (context : ScopeContext) (extra : List Constant)
    (depth : Nat) (scope : Scope) (next : List Step) :
    ((scope.scriptThen context extra depth next).map Step.pointCount).sum =
      (next.map Step.pointCount).sum := by
  have hscope : ∀ count ∈ (scope.script context extra depth).map Step.pointCount, count = 0 := by
    rw [List.forall_mem_map]
    intro step hstep
    rcases isOfScope_of_mem_scriptThen context extra depth scope [] step hstep with hscope | hnone
    · exact Step.pointCount_of_isOfScope hscope
    · cases hnone
  rw [scriptThen_eq, List.map_append, List.sum_append, List.sum_eq_zero hscope, Nat.zero_add]

/-- The script of a method tells the points of its batches. -/
theorem Method.sum_pointCount_script (limit : Nat) (batches : List (DocumentHandle × Batch))
    (blobs : List (List UInt8)) (method : Method) :
    ((method.script limit batches blobs).map Step.pointCount).sum =
      (batches.flatMap (·.2.offsets)).length := by
  have hlines : (batches.map fun told =>
      Step.pointCount (.issue (.defineSequencePoints told.1 told.2))).sum =
      (batches.flatMap (·.2.offsets)).length := by
    rw [List.length_flatMap]
    rfl
  have hattributes : (blobs.map fun blob =>
      Step.pointCount (.issue (.setSymbolAttribute method.token Metadata.attributeName blob))).sum =
      0 := List.sum_eq_zero (by simp [Step.pointCount])
  rw [script]
  simp only [List.map_cons, List.map_append, List.sum_cons, List.sum_append, List.map_map,
    Function.comp_def, Scope.sum_pointCount_scriptThen, hlines, hattributes]
  simp [Step.pointCount]

/-- The number of points that an accepted command counts. -/
theorem EmitStats.sequencePoints_count (stats : EmitStats) (command : Command) :
    (stats.count command).sequencePoints =
      stats.sequencePoints + (Step.issue command).pointCount := by
  cases command <;> rfl

/-! ## Emissions -/

namespace Emitter

open Attempt (Keeps)

variable {σ : Type} {emitter : Emitter σ} {tree : SymbolTree} {emission last : Emission σ}

/-- A script that was carried out to its end has counted the points that it tells. -/
theorem sequencePoints_of_perform {steps : List Step}
    (h : (emitter.perform steps).outcome emission = (.ok (), last)) :
    last.stats.sequencePoints =
      emission.stats.sequencePoints + (steps.map Step.pointCount).sum := by
  induction steps generalizing emission with
  | nil =>
    cases h
    rfl
  | cons step steps ih =>
    cases step with
    | tell notice =>
      obtain ⟨_, middle, htell, h⟩ := Attempt.outcome_bind_eq_ok_iff.1 h
      cases htell
      have hnone : (Step.tell notice).pointCount = 0 := rfl
      rw [ih h, List.map_cons, List.sum_cons, hnone, Nat.zero_add]
    | issue command =>
      obtain ⟨_, middle, hissue, h⟩ := Attempt.outcome_bind_eq_ok_iff.1 h
      obtain ⟨_, _, hsink, hcount⟩ := Attempt.outcome_bind_eq_ok_iff.1 hissue
      obtain ⟨sink, -, rfl⟩ := onSink_eq_iff.1 hsink
      cases hcount
      rw [ih h, EmitStats.sequencePoints_count, List.map_cons, List.sum_cons, Nat.add_assoc]
    | fail error => cases h

/-- To register a document counts no points. -/
theorem keeps_sequencePoints_register (emitter : Emitter σ) (document : Document) (count : Nat) :
    Keeps (fun emission : Emission σ => emission.stats.sequencePoints = count)
      (emitter.register document) := by
  intro emission h
  cases hregistered : emission.registered.get? document.path with
  | some registration =>
    rw [outcome_register_of_known _ hregistered]
    split <;> exact h
  | none =>
    rw [outcome_register_of_new _ hregistered]
    have hsink : Keeps (fun emission : Emission σ => emission.stats.sequencePoints = count)
        (onSink (emitter.sink.defineDocument document)) := fun _ h => h
    refine hsink.bind (fun handle => ?_) emission h
    exact fun _ h => h

/-- To gather line groups counts no points, and keeps all of them. -/
theorem points_of_gatherLines {method : Token} {lines : List LineGroup}
    {batches result : List (DocumentHandle × Batch)}
    (h : (emitter.gatherLines tree method lines batches).outcome emission = (.ok result, last)) :
    last.stats.sequencePoints = emission.stats.sequencePoints ∧
      (result.flatMap (·.2.offsets)).length =
        (batches.flatMap (·.2.offsets)).length + (lines.flatMap (·.points)).length := by
  induction lines generalizing batches emission with
  | nil =>
    cases h
    exact ⟨rfl, rfl⟩
  | cons group lines ih =>
    rw [gatherLines] at h
    rw [List.flatMap_cons, List.length_append]
    split at h
    · rename_i hempty
      rw [List.isEmpty_iff.1 hempty, List.length_nil, Nat.zero_add]
      exact ih h
    · obtain ⟨document, -, h⟩ := Attempt.outcome_lift_bind_eq_ok_iff.1 h
      obtain ⟨handle, middle, hregister, h⟩ := Attempt.outcome_bind_eq_ok_iff.1 h
      have hkept := keeps_sequencePoints_register emitter document _ emission rfl
      rw [hregister] at hkept
      obtain ⟨hcount, hpoints⟩ := ih h
      rw [length_gather] at hpoints
      exact ⟨hcount.trans hkept, by omega⟩

/-- A method that was told to its end has all its points counted. -/
theorem sequencePoints_of_emitMethod {method : Method}
    (h : (emitter.emitMethod tree method).outcome emission = (.ok (), last)) :
    last.stats.sequencePoints = emission.stats.sequencePoints + method.pointCount := by
  obtain ⟨_, -, h⟩ := Attempt.outcome_lift_bind_eq_ok_iff.1 h
  obtain ⟨batches, gathered, hgather, h⟩ := Attempt.outcome_bind_eq_ok_iff.1 h
  obtain ⟨blobs, -, h⟩ := Attempt.outcome_lift_bind_eq_ok_iff.1 h
  obtain ⟨_, told, htell, h⟩ := Attempt.outcome_bind_eq_ok_iff.1 h
  obtain ⟨hcount, hpoints⟩ := points_of_gatherLines hgather
  cases htell
  rw [sequencePoints_of_perform h, Method.sum_pointCount_script, hpoints]
  dsimp only
  rw [hcount, List.flatMap_nil, List.length_nil, Nat.zero_add, Method.pointCount]

theorem sequencePoints_of_emitMethods {methods : List Method}
    (h : (emitter.emitMethods tree methods).outcome emission = (.ok (), last)) :
    last.stats.sequencePoints =
      emission.stats.sequencePoints + (methods.map Method.pointCount).sum := by
  induction methods generalizing emission with
  | nil =>
    cases h
    rfl
  | cons method methods ih =>
    obtain ⟨_, middle, hmethod, h⟩ := Attempt.outcome_bind_eq_ok_iff.1 h
    rw [ih h, sequencePoints_of_emitMethod hmethod, List.map_cons, List.sum_cons, Nat.add_assoc]

/-- The entry point counts no points. -/
theorem sum_pointCount_entryScript (emitter : Emitter σ) (tree : SymbolTree) :
    ((emitter.entryScript tree).map Step.pointCount).sum = 0 := by
  rw [entryScript]
  split
  · split <;> rfl
  · rfl

/-- A relocation that succeeds has told every point of the tree, each of them in a document of the
tree, and its summary has their number. -/
theorem sequencePoints_of_relocate {map : PathMap} {state : σ} {summary : Summary}
    (h : (emitter.relocate tree map state).result = .ok summary) :
    summary.sequencePoints = (tree.methods.map Method.pointCount).sum ∧
      ∀ method ∈ tree.methods, method.HasDocuments (tree.remap map).tree := by
  obtain ⟨emission, hemit, -, rfl⟩ := summary_of_relocate h
  obtain ⟨_, entered, hentry, hmethods⟩ := Attempt.outcome_bind_eq_ok_iff.1 hemit
  have hpoints := sequencePoints_of_emitMethods hmethods
  have hkept := sequencePoints_of_perform hentry
  rw [sum_pointCount_entryScript] at hkept
  rw [hkept, (tree.remap_tree map).1] at hpoints
  have hdocuments := hasDocuments_of_emitMethods hmethods
  rw [(tree.remap_tree map).1] at hdocuments
  exact ⟨hpoints.trans (Nat.zero_add _), hdocuments⟩

end Emitter

end DebugSymbols
