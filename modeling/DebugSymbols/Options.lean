/-!
# Options of emission

Trees from a trusted source can go without the check of scope containment. The nesting of scopes is
limited in any case.
-/

namespace DebugSymbols

/-- How a tree is checked and what of it is written. -/
structure Options where
  /-- Whether every scope has to lie within the scope around it. -/
  validateScopes : Bool
  maxScopeDepth : Nat
  /-- Whether the entry point is written. -/
  emitEntryPoint : Bool
deriving DecidableEq, Repr

namespace Options

/-- Every check and every record. -/
def strict : Options := ⟨true, 256, true⟩

/-- No check of scope containment. -/
def trusted : Options := { strict with validateScopes := false }

instance : Inhabited Options := ⟨strict⟩

end Options

end DebugSymbols
