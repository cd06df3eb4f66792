import DebugSymbols.Metadata.Encode
import DebugSymbols.Method
import DebugSymbols.Options
import DebugSymbols.Sink.Protocol

/-!
# The script of a method

Once the documents of a method have handles, everything that is told to the sink about the method is
fixed: it is a list of steps, the script of the method. A script breaks off where the tree is at
fault. Before that the whole tree of scopes is checked.
-/

namespace DebugSymbols

/-- A step of a script. -/
inductive Step
  | tell (notice : Notice)
  | issue (command : Command)
  /-- The tree is at fault here. -/
  | fail (error : SymbolError)
deriving DecidableEq, Repr

/-- What the script of a scope needs to know of its method. -/
structure ScopeContext where
  method : Token
  /-- The signature of local variables. -/
  signature : Token
  /-- The limit of the nesting of scopes. -/
  limit : Nat
deriving DecidableEq, Repr

namespace Variable

/-- The step that defines a variable of a scope from `start` to `stop`. -/
def step (signature : Token) (start stop : UInt32) (local_ : Variable) : Step :=
  .issue (.defineLocalVariable
    ⟨local_.name, local_.attributes, signature, .ilOffset, local_.slot, start, stop⟩)

end Variable

/-- The step that defines a constant. -/
def Constant.step (constant : Constant) : Step :=
  .issue (.defineConstant constant.name constant.value constant.token)

namespace Scope

mutual

/-- The script of a scope at a depth, followed by the steps `next`: its locals, its constants and
after them `extra` ones, the scopes within, and its end. -/
def scriptThen (context : ScopeContext) (extra : List Constant) (depth : Nat) :
    Scope → List Step → List Step
  | ⟨span, locals, constants, children⟩, next =>
    if context.limit < depth then .fail (.recursionLimit context.limit) :: next
    else
      match span.stop with
      | .error error => .fail error :: next
      | .ok stop =>
        .tell (.scope span.offset stop context.method locals.length constants.length) ::
          .issue (.openScope span.offset) ::
          (locals.map (Variable.step context.signature span.offset stop) ++
            ((constants ++ extra).map Constant.step ++
              scriptsThen context (depth + 1) children (.issue (.closeScope stop) :: next)))

/-- The scripts of scopes at a depth one after the other, followed by the steps `next`. -/
def scriptsThen (context : ScopeContext) (depth : Nat) : List Scope → List Step → List Step
  | [], next => next
  | scope :: rest, next => scope.scriptThen context [] depth (scriptsThen context depth rest next)

end

mutual

/-- What follows a script has no influence on it. -/
theorem scriptThen_append (context : ScopeContext) (extra : List Constant) (depth : Nat) :
    ∀ (scope : Scope) (next rest : List Step),
      scope.scriptThen context extra depth (next ++ rest) =
        scope.scriptThen context extra depth next ++ rest
  | ⟨span, locals, constants, children⟩, next, rest => by
    simp only [scriptThen]
    split
    · rfl
    · split
      · rfl
      · simp only [List.cons_append, List.append_assoc, ← scriptsThen_append]

/-- What follows several scripts has no influence on them. -/
theorem scriptsThen_append (context : ScopeContext) (depth : Nat) :
    ∀ (scopes : List Scope) (next rest : List Step),
      scriptsThen context depth scopes (next ++ rest) =
        scriptsThen context depth scopes next ++ rest
  | [], _, _ => rfl
  | scope :: scopes, next, rest => by
    simp only [scriptsThen, scriptsThen_append context depth scopes, scriptThen_append]

end

/-- The script of a scope at a depth. -/
def script (context : ScopeContext) (extra : List Constant) (depth : Nat) (scope : Scope) :
    List Step := scope.scriptThen context extra depth []

theorem scriptThen_eq (context : ScopeContext) (extra : List Constant) (depth : Nat)
    (scope : Scope) (next : List Step) :
    scope.scriptThen context extra depth next = scope.script context extra depth ++ next := by
  rw [script, ← scriptThen_append, List.nil_append]

mutual

/-- Checks that every scope has an end and lies within the scope around it. -/
def validate (method : Token) : Scope → Except SymbolError Unit
  | ⟨span, _, _, children⟩ => do
    let _ ← span.stop
    validateWithin method span children

/-- Checks the scopes within a range. -/
def validateWithin (method : Token) (parent : Span) : List Scope → Except SymbolError Unit
  | [] => .ok ()
  | ⟨span, locals, constants, children⟩ :: rest => do
    if !parent.contains span then
      .error (.invalidTree (.scopeNotContained method span parent))
    else
      validate method ⟨span, locals, constants, children⟩
      validateWithin method parent rest

end

end Scope

namespace Method

/-- Checks the nesting of scopes and, unless the tree is trusted, their ranges. -/
def validate (options : Options) (method : Method) : Except SymbolError Unit :=
  if method.scope.exceedsDepth options.maxScopeDepth then
    .error (.recursionLimit options.maxScopeDepth)
  else if options.validateScopes then do
    method.scope.validate method.token
    method.iteratorScopes.forM fun scope => do
      let _ ← scope.stop
  else .ok ()

/-- The metadata blobs of a method: the class of an iterator, then its scopes, each if there is
something to write. -/
def blobs (method : Method) : Except SymbolError (List (List UInt8)) := do
  let classBlobs ←
    if method.isIterator then
      (fun blob => [blob]) <$> Metadata.encodeIteratorClass method.iteratorClass
    else pure []
  let scopesBlobs ←
    if method.iteratorScopes.isEmpty then pure []
    else
      (fun blob => [blob]) <$> Metadata.encodeIteratorScopes method.iteratorScopes
  return classBlobs ++ scopesBlobs

/-- The script of a method whose line groups have been gathered in `batches` and whose metadata
stands in `blobs`. -/
def script (limit : Nat) (batches : List (DocumentHandle × Batch)) (blobs : List (List UInt8))
    (method : Method) : List Step :=
  let context : ScopeContext := ⟨method.token, method.slotToken, limit⟩
  let attributes := blobs.map fun blob =>
    .issue (.setSymbolAttribute method.token Metadata.attributeName blob)
  .issue (.openMethod method.token) ::
    (batches.map (fun (handle, batch) => .issue (.defineSequencePoints handle batch)) ++
      method.scope.scriptThen context method.constants 1 (attributes ++ [.issue .closeMethod]))

end Method

end DebugSymbols
