import DebugSymbols.Sink.Protocol

/-!
# Sessions

A session sees to it that a sink is released once: it is closed when the work is done, and given up
when closing fails or the work broke off.
-/

namespace DebugSymbols

/-- A state in which a piece of work ended: its result, the sink, and the notices given. -/
structure Outcome (σ α : Type) where
  result : Except SymbolError α
  sink : σ
  notices : List Notice

namespace Sink

variable {σ : Type}

/-- Closes a sink; a sink that does not close is given up. -/
def finish (sink : Sink σ) (state : σ) : Outcome σ Unit :=
  match (sink.issue .close).outcome state with
  | (.ok _, closed) => ⟨.ok (), closed, []⟩
  | (.error error, failed) =>
    let (notices, released) := sink.abort failed
    ⟨.error error, released, notices⟩

/-- Gives up a sink whose work broke off, with a warning. -/
def release (sink : Sink σ) (state : σ) : List Notice × σ :=
  let (notices, released) := sink.abort state
  (.unfinishedStore :: notices, released)

end Sink

end DebugSymbols
