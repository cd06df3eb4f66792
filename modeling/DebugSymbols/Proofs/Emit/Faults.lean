import DebugSymbols.Proofs.Emit.Log
import DebugSymbols.Proofs.Metadata.Filling

/-!
# Faults of trees

Everything that an emitter works out about a tree before it tells it to a sink fails only because
the tree is at fault: with the errors of trees, and never with one of a sink or of a blob.
-/

namespace DebugSymbols

/-- Whether an error tells a fault of the tree. -/
def SymbolError.OfTree : SymbolError → Prop
  | .invalidTree _ | .unknownDocument _ _ | .recursionLimit _ => True
  | _ => False

theorem SymbolError.IsInvalidTree.ofTree : ∀ error : SymbolError, error.IsInvalidTree → error.OfTree
  | .invalidTree _, _ => trivial

/-- Whether a computation can only fail with a fault of the tree. -/
def FailsOnTree {α : Type} (result : Except SymbolError α) : Prop :=
  ∀ error, result = .error error → error.OfTree

namespace FailsOnTree

variable {α β : Type}

theorem ok (value : α) : FailsOnTree (.ok value) := FailsOnly.ok value

theorem error {error : SymbolError} (h : error.OfTree) :
    FailsOnTree (.error error : Except SymbolError α) := FailsOnly.error h

theorem bind {result : Except SymbolError α} {step : α → Except SymbolError β}
    (hresult : FailsOnTree result) (hstep : ∀ value, FailsOnTree (step value)) :
    FailsOnTree (result >>= step) := FailsOnly.bind hresult hstep

theorem map {result : Except SymbolError α} (f : α → β) (hresult : FailsOnTree result) :
    FailsOnTree (result.map f) := FailsOnly.map f hresult

theorem forM {step : α → Except SymbolError PUnit} (hstep : ∀ value, FailsOnTree (step value))
    (values : List α) : FailsOnTree (values.forM step) := FailsOnly.forM hstep values

/-- An invalid tree is a fault of the tree. -/
theorem ofInvalidTree {result : Except SymbolError α}
    (h : FailsOnly SymbolError.IsInvalidTree result) : FailsOnTree result :=
  h.mono SymbolError.IsInvalidTree.ofTree

theorem stop (span : Span) : FailsOnTree span.stop := ofInvalidTree (FailsOnly.stop span)

mutual

theorem validateScope (method : Token) : ∀ scope : Scope, FailsOnTree (scope.validate method)
  | ⟨span, _, _, children⟩ => by
    rw [Scope.validate]
    exact bind (stop span) fun _ => validateWithin method span children

theorem validateWithin (method : Token) (parent : Span) :
    ∀ scopes : List Scope, FailsOnTree (Scope.validateWithin method parent scopes)
  | [] => ok ()
  | ⟨span, locals, constants, children⟩ :: rest => by
    rw [Scope.validateWithin]
    split
    · exact error trivial
    · exact bind (validateScope method _) fun _ => validateWithin method parent rest

end

theorem validate (options : Options) (method : Method) : FailsOnTree (method.validate options) := by
  rw [Method.validate]
  split
  · exact error trivial
  · split
    · exact bind (validateScope _ _) fun _ => forM (fun span => bind (stop span) fun _ => ok _) _
    · exact ok ()

theorem blobs (method : Method) : FailsOnTree method.blobs := by
  rw [Method.blobs_eq_bind]
  refine bind ?_ fun _ => bind ?_ fun _ => ok _
  · split
    · exact ok _
    · exact map _ (ofInvalidTree (Metadata.failsOnly_encodeIteratorClass _))
  · split
    · exact ok _
    · exact map _ (ofInvalidTree (Metadata.failsOnly_encodeIteratorScopes _))

theorem documentOf (tree : SymbolTree) (method : Token) (id : DocumentId) :
    FailsOnTree (Emitter.documentOf tree method id) := by
  rw [Emitter.documentOf]
  split
  · split
    · exact error trivial
    · exact ok _
  · exact error trivial

end FailsOnTree

end DebugSymbols
