import DebugSymbols.Emit.Emitter
import DebugSymbols.PathMap
import DebugSymbols.Sink.Session

/-!
# Relocating the symbols of a program

To relocate symbols is to replace the source paths of a tree by a path map and to tell the tree to a
sink. Whatever happens, the sink is released once: closed if everything was accepted, and given up
otherwise.
-/

namespace DebugSymbols

/-- What was done. -/
structure Summary where
  methods : Nat
  documentsRemapped : Nat
  documentsRegistered : Nat
  sequencePoints : Nat
  scopes : Nat
  attributes : Nat
deriving DecidableEq, Repr, Inhabited

/-- The summary of an emission. -/
def EmitStats.summary (stats : EmitStats) (remapped : Nat) : Summary where
  methods := stats.methods
  documentsRemapped := remapped
  documentsRegistered := stats.documentsRegistered
  sequencePoints := stats.sequencePoints
  scopes := stats.scopes
  attributes := stats.attributes

/-- The notice of a summary. -/
def Summary.notice (summary : Summary) : Notice :=
  .relocated summary.methods summary.documentsRemapped summary.documentsRegistered
    summary.sequencePoints

namespace Emitter

variable {σ : Type}

/-- Replaces the paths of a tree and tells it to the sink, which is released in the end. -/
def relocate (emitter : Emitter σ) (tree : SymbolTree) (map : PathMap) (state : σ) :
    Outcome σ Summary :=
  let remapped := tree.remap map
  let (result, emission) := (emitter.emit remapped.tree).outcome (Emission.start state)
  let notices := remapped.notices ++ emission.notices.toList
  match result with
  | .error error =>
    let (last, released) := emitter.sink.release emission.sink
    ⟨.error error, released, notices ++ last⟩
  | .ok () =>
    let finished := emitter.sink.finish emission.sink
    match finished.result with
    | .error error => ⟨.error error, finished.sink, notices ++ finished.notices⟩
    | .ok () =>
      let summary := emission.stats.summary remapped.changed
      ⟨.ok summary, finished.sink, notices ++ finished.notices ++ [summary.notice]⟩

/-- Relocates the tree that a source gives; if it gives none the sink is given up at once. -/
def relocateFrom (emitter : Emitter σ) (source : Except SymbolError SymbolTree) (map : PathMap)
    (state : σ) : Outcome σ Summary :=
  match source with
  | .ok tree => emitter.relocate tree map state
  | .error error =>
    let (notices, released) := emitter.sink.abort state
    ⟨.error error, released, notices⟩

end Emitter

end DebugSymbols
