import DebugSymbols.Emit.Relocate
import DebugSymbols.Proofs.Emit.Dialogue

/-!
# A sink is released once

Whatever a sink answers, relocating a tree ends with one release of it: it is closed if all went
well, and given up otherwise. To see this the sink is watched: its state comes with the list of what
it has seen. As an emission is the same dialogue with every sink, watching changes nothing.
-/

namespace DebugSymbols

/-! ## The end of a relocation -/

/-- What becomes of an emission: the sink is closed if it came to its end, and given up if it did
not or if the sink does not close. -/
def Sink.conclude {σ : Type} (sink : Sink σ) (remapped : Nat) :
    Except SymbolError (Unit × Emission Unit) × σ → Except SymbolError Summary × σ
  | (.error error, reached) => (.error error, (sink.abort reached).2)
  | (.ok (_, ledger), reached) =>
    match (sink.issue .close).outcome reached with
    | (.ok _, closed) => (.ok (ledger.stats.summary remapped), closed)
    | (.error error, failed) => (.error error, (sink.abort failed).2)

/-- A relocation concludes the emission of the tree with the paths replaced. -/
theorem Emitter.relocate_eq_conclude {σ : Type} (emitter : Emitter σ) (tree : SymbolTree)
    (map : PathMap) (state : σ) :
    ((emitter.relocate tree map state).result, (emitter.relocate tree map state).sink) =
      emitter.sink.conclude (tree.remap map).changed
        (Emission.split ((emitter.emit (tree.remap map).tree).outcome (Emission.start state))) := by
  rw [relocate]
  rcases (emitter.emit (tree.remap map).tree).outcome (Emission.start state) with
    ⟨_ | _, emission⟩
  · rfl
  · dsimp only [Sink.finish, Emission.split, Except.map, Sink.conclude]
    rcases (emitter.sink.issue .close).outcome emission.sink with ⟨_ | _, closed⟩ <;> rfl

/-! ## Watched sinks -/

/-- What a sink sees: a call and whether it succeeds, or that it is given up. -/
inductive Seen
  | call (made : Call) (accepted : Bool)
  | abort
deriving DecidableEq, Repr

namespace Seen

/-- The sink was closed. -/
def closed : Seen := .call (.issue .close) true

/-- Whether a sink is neither given up nor asked to close. -/
def IsOpen : Seen → Prop
  | .call made _ => made ≠ .issue .close
  | .abort => False

theorem IsOpen.ne_abort {item : Seen} (h : item.IsOpen) : item ≠ .abort := by
  rintro rfl
  exact h

theorem IsOpen.ne_closed {item : Seen} (h : item.IsOpen) : item ≠ closed := by
  rintro rfl
  exact h rfl

end Seen

/-- The sink that keeps what it sees. -/
def Sink.watched {σ : Type} (sink : Sink σ) : Sink (σ × List Seen) where
  defineDocument document := .ofOutcome fun (state, seen) =>
    let (answer, reached) := (sink.defineDocument document).outcome state
    (answer, reached, seen ++ [.call (.define document) answer.isOk])
  issue command := .ofOutcome fun (state, seen) =>
    let (answer, reached) := (sink.issue command).outcome state
    (answer, reached, seen ++ [.call (.issue command) answer.isOk])
  abort := fun (state, seen) =>
    let (notices, released) := sink.abort state
    (notices, released, seen ++ [.abort])

/-- An attempt on a watched sink is the one on the sink itself, and the sink is neither closed nor
given up in it. -/
def Watches {σ α : Type} (attempt : Attempt σ α) (watched : Attempt (σ × List Seen) α) : Prop :=
  ∀ state seen, ∃ calls, (∀ item ∈ calls, item.IsOpen) ∧
    watched.outcome (state, seen) =
      ((attempt.outcome state).1, (attempt.outcome state).2, seen ++ calls)

namespace Watches

variable {σ α β : Type}

theorem lift (result : Except SymbolError α) :
    Watches (Attempt.lift result : Attempt σ α) (Attempt.lift result) := by
  intro state seen
  refine ⟨[], by simp, ?_⟩
  rw [Attempt.outcome_lift, Attempt.outcome_lift, List.append_nil]

theorem bind {attempt : Attempt σ α} {watched : Attempt (σ × List Seen) α}
    {next : α → Attempt σ β} {watchedNext : α → Attempt (σ × List Seen) β}
    (hattempt : Watches attempt watched)
    (hnext : ∀ value, Watches (next value) (watchedNext value)) :
    Watches (attempt >>= next) (watched >>= watchedNext) := by
  intro state seen
  obtain ⟨calls, hopen, hcalls⟩ := hattempt state seen
  rw [Attempt.outcome_bind, Attempt.outcome_bind, hcalls]
  rcases attempt.outcome state with ⟨_ | value, reached⟩
  · exact ⟨calls, hopen, rfl⟩
  · obtain ⟨more, hmore, hrest⟩ := hnext value reached (seen ++ calls)
    rw [List.append_assoc] at hrest
    exact ⟨calls ++ more, List.forall_mem_append.2 ⟨hopen, hmore⟩, hrest⟩

theorem defineDocument (sink : Sink σ) (document : Document) :
    Watches (sink.defineDocument document) (sink.watched.defineDocument document) :=
  fun _ _ => ⟨[.call (.define document) _], by simp [Seen.IsOpen], rfl⟩

theorem issue (sink : Sink σ) {command : Command} (hopen : command ≠ .close) :
    Watches (sink.issue command) (sink.watched.issue command) :=
  fun _ _ => ⟨[.call (.issue command) _], by simp [Seen.IsOpen, hopen], rfl⟩

/-- Watching does not change a dialogue. -/
theorem hold (sink : Sink σ) (dialogue : Dialogue α) :
    Watches (dialogue.hold sink) (dialogue.hold sink.watched) := by
  induction dialogue with
  | done result => exact lift result
  | define document next ih => exact bind (defineDocument sink document) ih
  | issue command hopen next ih => exact bind (issue sink hopen) fun _ => ih

end Watches

/-! ## Release -/

/-- A sink that has seen so much was released once, at the very end: it was closed if the result is
a success, and given up if it is an error. -/
structure ReleasedOnce {α : Type} (result : Except SymbolError α) (seen : List Seen) : Prop where
  ok_iff : (∃ value, result = .ok value) ↔ Seen.closed ∈ seen
  of_ok : ∀ value, result = .ok value → ∃ before, seen = before ++ [Seen.closed] ∧
    Seen.abort ∉ before ∧ Seen.closed ∉ before
  of_error : ∀ error, result = .error error → ∃ before, seen = before ++ [Seen.abort] ∧
    Seen.abort ∉ before ∧ Seen.closed ∉ before

namespace ReleasedOnce

variable {α : Type} {before : List Seen}

theorem ok (value : α) (hbefore : ∀ item ∈ before, item ≠ .abort ∧ item ≠ Seen.closed) :
    ReleasedOnce (.ok value) (before ++ [Seen.closed]) where
  ok_iff := ⟨fun _ => by simp, fun _ => ⟨value, rfl⟩⟩
  of_ok _ _ := ⟨before, rfl, fun h => (hbefore _ h).1 rfl, fun h => (hbefore _ h).2 rfl⟩
  of_error _ h := nomatch h

theorem error {error : SymbolError}
    (hbefore : ∀ item ∈ before, item ≠ .abort ∧ item ≠ Seen.closed) :
    ReleasedOnce (.error error : Except SymbolError α) (before ++ [Seen.abort]) where
  ok_iff := by
    have hclosed : Seen.closed ∉ before := fun h => (hbefore _ h).2 rfl
    have hne : Seen.closed ≠ .abort := by decide
    simp [hclosed, hne]
  of_ok _ h := nomatch h
  of_error _ _ := ⟨before, rfl, fun h => (hbefore _ h).1 rfl, fun h => (hbefore _ h).2 rfl⟩

end ReleasedOnce

/-- A conclusion is the same for a sink that is watched, and releases it once. -/
theorem Sink.conclude_watched {σ : Type} (sink : Sink σ) (remapped : Nat)
    (result : Except SymbolError (Unit × Emission Unit)) (reached : σ) {seen : List Seen}
    (hopen : ∀ item ∈ seen, item.IsOpen) :
    ∃ last, sink.watched.conclude remapped (result, reached, seen) =
        ((sink.conclude remapped (result, reached)).1,
          (sink.conclude remapped (result, reached)).2, last) ∧
      ReleasedOnce (sink.conclude remapped (result, reached)).1 last := by
  have hseen : ∀ item ∈ seen, item ≠ .abort ∧ item ≠ Seen.closed :=
    fun item hmem => ⟨(hopen item hmem).ne_abort, (hopen item hmem).ne_closed⟩
  rcases result with error | ⟨_, ledger⟩
  · exact ⟨seen ++ [Seen.abort], rfl, ReleasedOnce.error hseen⟩
  · have hclose : (sink.watched.issue .close).outcome (reached, seen) =
        (((sink.issue .close).outcome reached).1, ((sink.issue .close).outcome reached).2,
          seen ++ [.call (.issue .close) ((sink.issue .close).outcome reached).1.isOk]) := rfl
    rw [conclude, conclude, hclose]
    rcases (sink.issue .close).outcome reached with ⟨error | _, failed⟩
    · -- a sink that does not close is given up
      refine ⟨seen ++ [.call (.issue .close) false] ++ [Seen.abort], rfl, ReleasedOnce.error ?_⟩
      rw [List.forall_mem_append]
      exact ⟨hseen, by simp [Seen.closed]⟩
    · exact ⟨seen ++ [Seen.closed], rfl, ReleasedOnce.ok _ hseen⟩

namespace Emitter

variable {σ : Type}

/-- An outcome with a watched sink is the one with the sink itself, and shows that the sink was
released once. -/
structure ReleasesOnce (outcome : Outcome σ Summary) (watched : Outcome (σ × List Seen) Summary) :
    Prop where
  result_eq : watched.result = outcome.result
  sink_eq : watched.sink.1 = outcome.sink
  released : ReleasedOnce outcome.result watched.sink.2

theorem releasesOnce_relocate (sink : Sink σ) (options : Options) (names : Option Names)
    (tree : SymbolTree) (map : PathMap) (state : σ) :
    ReleasesOnce ((Emitter.mk sink options names).relocate tree map state)
      ((Emitter.mk sink.watched options names).relocate tree map (state, [])) := by
  -- both emissions are one dialogue
  obtain ⟨dialogue, hdialogue⟩ := Uniform.emit options names (tree.remap map).tree
    (Emission.start ())
  obtain ⟨calls, hopen, hcalls⟩ := Watches.hold sink dialogue state []
  have hemit : Emission.split (((Emitter.mk sink options names).emit (tree.remap map).tree).outcome
      (Emission.start state)) = _ := hdialogue σ sink state
  have hemitWatched : Emission.split (((Emitter.mk sink.watched options names).emit
      (tree.remap map).tree).outcome (Emission.start (state, []))) = _ :=
    hdialogue _ sink.watched (state, [])
  have houtcome := relocate_eq_conclude (Emitter.mk sink options names) tree map state
  have hwatched := relocate_eq_conclude (Emitter.mk sink.watched options names) tree map (state, [])
  rw [hemit] at houtcome
  rw [hemitWatched, hcalls, List.nil_append] at hwatched
  obtain ⟨last, hlast, hreleased⟩ := sink.conclude_watched (tree.remap map).changed
    ((dialogue.hold sink).outcome state).1 ((dialogue.hold sink).outcome state).2 hopen
  rw [hlast, ← houtcome] at hwatched
  rw [← houtcome] at hreleased
  obtain ⟨hresult, hsink⟩ := Prod.mk.inj hwatched
  refine ⟨hresult, congrArg Prod.fst hsink, ?_⟩
  rw [hsink]
  exact hreleased

/-- Relocating a tree, or the tree of a source, releases the sink once, at the very end, whatever
the sink is and does: it is closed if the result is a success, and otherwise given up. -/
theorem released_once (sink : Sink σ) (options : Options) (names : Option Names) (map : PathMap)
    (state : σ) :
    let emitter : Emitter σ := ⟨sink, options, names⟩
    let watched : Emitter (σ × List Seen) := ⟨sink.watched, options, names⟩
    (∀ tree, ReleasesOnce (emitter.relocate tree map state)
        (watched.relocate tree map (state, []))) ∧
      ∀ source, ReleasesOnce (emitter.relocateFrom source map state)
        (watched.relocateFrom source map (state, [])) := by
  intro emitter watched
  refine ⟨fun tree => releasesOnce_relocate sink options names tree map state, fun source => ?_⟩
  cases source with
  | ok tree => exact releasesOnce_relocate sink options names tree map state
  | error error =>
    have hgivenUp : ReleasedOnce (.error error : Except SymbolError Summary) ([] ++ [Seen.abort]) :=
      ReleasedOnce.error (by simp)
    exact ⟨rfl, rfl, hgivenUp⟩

end Emitter

end DebugSymbols
