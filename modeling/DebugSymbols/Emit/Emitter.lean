import DebugSymbols.Emit.Script
import DebugSymbols.Names
import DebugSymbols.SymbolTree

/-!
# Emission of a tree

An emitter tells a tree to a sink, method by method. It remembers which documents it has defined, so
that each path is defined once however many documents of however many trees have it; the first of
them decides the identifiers. It counts what the sink accepted.
-/

namespace DebugSymbols

/-- How much was accepted by the sink. -/
structure EmitStats where
  methods : Nat
  documentsRegistered : Nat
  sequencePoints : Nat
  batches : Nat
  scopes : Nat
  locals : Nat
  constants : Nat
  attributes : Nat
deriving DecidableEq, Repr

namespace EmitStats

/-- Nothing yet. -/
def zero : EmitStats := ⟨0, 0, 0, 0, 0, 0, 0, 0⟩

instance : Inhabited EmitStats := ⟨zero⟩

/-- Counts an accepted command. Methods and scopes count when they are closed. -/
def count (stats : EmitStats) : Command → EmitStats
  | .closeMethod => { stats with methods := stats.methods + 1 }
  | .closeScope _ => { stats with scopes := stats.scopes + 1 }
  | .defineSequencePoints _ batch =>
    { stats with
      batches := stats.batches + 1
      sequencePoints := stats.sequencePoints + batch.length }
  | .defineLocalVariable _ => { stats with locals := stats.locals + 1 }
  | .defineConstant _ _ _ => { stats with constants := stats.constants + 1 }
  | .setSymbolAttribute _ _ _ => { stats with attributes := stats.attributes + 1 }
  | _ => stats

end EmitStats

/-- A document that has been defined, with its handle. -/
structure Registration where
  handle : DocumentHandle
  document : Document
deriving DecidableEq, Repr

/-- An emission in progress. -/
structure Emission (σ : Type) where
  /-- The documents defined so far, by path. -/
  registered : Dictionary String Registration
  stats : EmitStats
  notices : Array Notice
  sink : σ

/-- An emission that has not begun. -/
def Emission.start {σ : Type} (sink : σ) : Emission σ := ⟨.empty, .zero, #[], sink⟩

/-- An emitter: the sink it tells trees to, its options, and the names it knows. -/
structure Emitter (σ : Type) where
  sink : Sink σ
  options : Options
  names : Option Names

namespace Emitter

variable {σ : Type}

/-- Gives a notice. -/
def tell (notice : Notice) : Attempt (Emission σ) Unit :=
  modify fun emission => { emission with notices := emission.notices.push notice }

/-- Makes an attempt on the sink. -/
def onSink {α : Type} (step : Attempt σ α) : Attempt (Emission σ) α :=
  .ofOutcome fun ⟨registered, stats, notices, sink⟩ =>
    let (result, sink) := step.outcome sink
    (result, ⟨registered, stats, notices, sink⟩)

/-- The label of a method in notices. -/
def label (emitter : Emitter σ) (token : Token) : String :=
  match emitter.names with
  | some names => names.label token
  | none => token.text

/-- Issues a command and counts it if it was accepted. -/
def issue (emitter : Emitter σ) (command : Command) : Attempt (Emission σ) Unit := do
  onSink (emitter.sink.issue command)
  modify fun emission => { emission with stats := emission.stats.count command }

/-- Carries out a script up to the first failure. -/
def perform (emitter : Emitter σ) : List Step → Attempt (Emission σ) Unit
  | [] => pure ()
  | .tell notice :: rest => do
    tell notice
    emitter.perform rest
  | .issue command :: rest => do
    emitter.issue command
    emitter.perform rest
  | .fail error :: _ => throw error

/-- Defines a document and remembers its handle. -/
def define (emitter : Emitter σ) (document : Document) : Attempt (Emission σ) DocumentHandle := do
  let handle ← onSink (emitter.sink.defineDocument document)
  tell (.registered document.path handle)
  modify fun emission =>
    { emission with
      registered := emission.registered.insert document.path ⟨handle, document⟩
      stats := { emission.stats with
        documentsRegistered := emission.stats.documentsRegistered + 1 } }
  return handle

/-- The handle of a document: the one that its path has, or a new one. -/
def register (emitter : Emitter σ) (document : Document) :
    Attempt (Emission σ) DocumentHandle := do
  match (← get).registered.get? document.path with
  | some registration =>
    if !registration.document.sameKind document then tell (.kindMismatch document.path)
    return registration.handle
  | none => emitter.define document

/-- Adds points to the batch of a document, or opens a batch for it behind the others. -/
def gather (handle : DocumentHandle) (points : List SequencePoint) :
    List (DocumentHandle × Batch) → List (DocumentHandle × Batch)
  | [] => [(handle, .ofPoints points)]
  | (other, batch) :: rest =>
    if other = handle then (other, batch.extend points) :: rest
    else (other, batch) :: gather handle points rest

/-- The document of a line group. One without a path counts as unknown. -/
def documentOf (tree : SymbolTree) (method : Token) (id : DocumentId) :
    Except SymbolError Document :=
  match tree.document? id with
  | some document =>
    if document.path.isEmpty then .error (.unknownDocument method id) else .ok document
  | none => .error (.unknownDocument method id)

/-- Gathers the points of line groups by document; groups without points are passed over. -/
def gatherLines (emitter : Emitter σ) (tree : SymbolTree) (method : Token) :
    List LineGroup → List (DocumentHandle × Batch) →
      Attempt (Emission σ) (List (DocumentHandle × Batch))
  | [], batches => return batches
  | group :: rest, batches =>
    if group.isEmpty then emitter.gatherLines tree method rest batches
    else do
      let document ← Attempt.lift (documentOf tree method group.document)
      let handle ← emitter.register document
      emitter.gatherLines tree method rest (gather handle group.points batches)

/-- Tells one method of a tree to the sink. -/
def emitMethod (emitter : Emitter σ) (tree : SymbolTree) (method : Method) :
    Attempt (Emission σ) Unit := do
  Attempt.lift (method.validate emitter.options)
  let batches ← emitter.gatherLines tree method.token method.lines []
  let blobs ← Attempt.lift method.blobs
  tell (.emitting (emitter.label method.token) method.pointCount batches.length)
  emitter.perform (method.script emitter.options.maxScopeDepth batches blobs)

/-- Tells methods of a tree to the sink, one after the other. -/
def emitMethods (emitter : Emitter σ) (tree : SymbolTree) :
    List Method → Attempt (Emission σ) Unit
  | [] => pure ()
  | method :: rest => do
    emitter.emitMethod tree method
    emitter.emitMethods tree rest

/-- The steps that tell the entry point, if there is one and it is wanted. -/
def entryScript (emitter : Emitter σ) (tree : SymbolTree) : List Step :=
  match tree.entryPoint with
  | some token =>
    if emitter.options.emitEntryPoint then
      [.tell (.entryPoint (emitter.label token)), .issue (.setUserEntryPoint token)]
    else []
  | none => []

/-- Tells a tree to the sink: the entry point first, then the methods. -/
def emit (emitter : Emitter σ) (tree : SymbolTree) : Attempt (Emission σ) Unit := do
  emitter.perform (emitter.entryScript tree)
  emitter.emitMethods tree tree.methods

end Emitter

end DebugSymbols
