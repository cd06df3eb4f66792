import DebugSymbols.Error

/-!
# Attempts

An attempt may fail, and what it did before the failure stays done: it gives the state it has
reached in either case. Sinks and everything that writes into them are attempts.
-/

namespace DebugSymbols

/-- A computation over a state that may fail and keeps the state it has reached. -/
abbrev Attempt (σ α : Type) : Type := ExceptT SymbolError (StateM σ) α

namespace Attempt

variable {σ α : Type}

/-- The outcome of an attempt from a state, together with the state it has reached. -/
def outcome (attempt : Attempt σ α) (state : σ) : Except SymbolError α × σ :=
  attempt.run.run state

/-- The attempt with a given outcome for every state. -/
def ofOutcome (step : σ → Except SymbolError α × σ) : Attempt σ α :=
  ExceptT.mk fun state => step state

/-- The attempt that fails at once. -/
def fail (error : SymbolError) : Attempt σ α := throw error

/-- The attempt to have the value of a computation without a state. -/
def lift (result : Except SymbolError α) : Attempt σ α := MonadExcept.ofExcept result

end Attempt

end DebugSymbols
