import DebugSymbols.Sink.Protocol

/-!
# The recording sink

The recording sink keeps the calls it accepts and refuses every call that breaks the protocol: a
method within a method, anything of a method outside of one, scopes that are not balanced, a second
outermost scope, sequence points for handles it never gave out, and anything after it was closed.

What it needs to know about the past is a summary: the open method, the number of its outermost
scopes, and the starts of the open scopes. A failure can be asked for in advance; the first call of
that operation then fails.
-/

namespace DebugSymbols

/-- A call that was accepted. -/
inductive Entry
  | defineDocument (path : String) (handle : DocumentHandle)
  | setUserEntryPoint (method : Token)
  | openMethod (method : Token)
  | closeMethod
  | openScope (start : UInt32)
  | closeScope (stop : UInt32)
  | defineSequencePoints (document : DocumentHandle) (batch : Batch)
  | defineLocalVariable (variable_ : LocalVariable)
  | defineConstant (name : String) (value : ConstantValue) (signature : Token)
  | setSymbolAttribute (parent : Token) (name : String) (data : List UInt8)
  | close
  | aborted
deriving DecidableEq, Repr

/-- The entry of an accepted command. -/
def Command.entry : Command → Entry
  | setUserEntryPoint method => .setUserEntryPoint method
  | openMethod method => .openMethod method
  | closeMethod => .closeMethod
  | openScope start => .openScope start
  | closeScope stop => .closeScope stop
  | defineSequencePoints document batch => .defineSequencePoints document batch
  | defineLocalVariable local_ => .defineLocalVariable local_
  | defineConstant name value signature => .defineConstant name value signature
  | setSymbolAttribute parent name data => .setSymbolAttribute parent name data
  | close => .close

/-- The state of a recording sink. -/
structure Recording where
  entries : Array Entry
  /-- The documents by handle. -/
  documents : Array Document
  /-- The open method. -/
  method : Option Token
  /-- The number of outermost scopes of the open method. -/
  rootScopes : Nat
  /-- The starts of the open scopes, the innermost first. -/
  scopes : List UInt32
  finished : Bool
  aborted : Bool
  /-- The operation whose next call fails. -/
  failOn : Option Operation
deriving Repr, Inhabited

namespace Recording

/-- A recording without calls, with the operation whose first call fails. -/
def start (failOn : Option Operation) : Recording := ⟨#[], #[], none, 0, [], false, false, failOn⟩

/-- Whether the sink was closed, and not given up. -/
def isClosed (recording : Recording) : Bool := recording.finished && !recording.aborted

/-- The document known under a handle. -/
def document? (recording : Recording) (handle : DocumentHandle) : Option Document :=
  recording.documents[handle.index]?

/-- The method that is open. -/
def inMethod (recording : Recording) : Except Refusal Token :=
  match recording.method with
  | some method => .ok method
  | none => .error .noMethodOpen

/-- The start of the innermost open scope, and the starts of the scopes around it. -/
def inScope (recording : Recording) : Except Refusal (UInt32 × List UInt32) := do
  let _ ← recording.inMethod
  match recording.scopes with
  | innermost :: outer => return (innermost, outer)
  | [] => .error .noScopeOpen

/-- What an accepted command makes of the summary of the past, or why it is refused. -/
def transition (recording : Recording) : Command → Except Refusal Recording
  | .setUserEntryPoint _ => .ok recording
  | .openMethod method =>
    match recording.method with
    | some openMethod => .error (.methodStillOpen method openMethod)
    | none => .ok { recording with method := some method, rootScopes := 0 }
  | .closeMethod => do
    let method ← recording.inMethod
    if recording.scopes ≠ [] then .error (.scopesStillOpen method recording.scopes.length)
    else if recording.rootScopes ≠ 1 then .error (.rootScopeCount method recording.rootScopes)
    else .ok { recording with method := none }
  | .openScope start => do
    let _ ← recording.inMethod
    if recording.scopes ≠ [] then .ok { recording with scopes := start :: recording.scopes }
    else if recording.rootScopes = 0 then
      .ok { recording with rootScopes := 1, scopes := [start] }
    else .error .secondRootScope
  | .closeScope stop => do
    let (start, outer) ← recording.inScope
    if stop < start then .error (.scopeEndsBeforeStart stop start)
    else .ok { recording with scopes := outer }
  | .defineSequencePoints handle batch => do
    let _ ← recording.inMethod
    if (recording.document? handle).isNone then .error (.unknownHandle handle)
    else if !batch.isConsistent then .error .unevenColumns
    else .ok recording
  | .defineLocalVariable _ | .defineConstant _ _ _ => do
    let _ ← recording.inScope
    return recording
  | .setSymbolAttribute parent _ _ => do
    let method ← recording.inMethod
    if parent ≠ method then .error (.foreignAttribute parent method) else .ok recording
  | .close =>
    match recording.method with
    | some method => .error (.closedInsideMethod method)
    | none => .ok { recording with finished := true }

/-- Adds an entry at the end. -/
def record (recording : Recording) (entry : Entry) : Recording :=
  { recording with entries := recording.entries.push entry }

/-- Makes a call of an operation: a finished sink refuses all of them, and a failure that was asked
for happens once. Any other call is accepted if `step` accepts it, and then its entry is added. -/
def attempt {α : Type} (operation : Operation) (entry : α → Entry)
    (step : Recording → Except Refusal (α × Recording)) : Attempt Recording α :=
  .ofOutcome fun recording =>
    if recording.finished then (.error (.sinkFailure operation .alreadyClosed), recording)
    else if recording.failOn = some operation then
      (.error (.sinkFailure operation .injected), { recording with failOn := none })
    else
      match step recording with
      | .error refusal => (.error (.sinkFailure operation refusal), recording)
      | .ok (answer, next) => (.ok answer, next.record (entry answer))

/-- Keeps a document under the next handle. -/
def keepDocument (document : Document) (recording : Recording) :
    Except Refusal (DocumentHandle × Recording) :=
  let handle : DocumentHandle := ⟨recording.documents.size⟩
  if handle.index < UInt32.size then
    .ok (handle, { recording with documents := recording.documents.push document })
  else .error .tooManyDocuments

/-- Carries out a command that the protocol allows. -/
def carryOut (command : Command) (recording : Recording) : Except Refusal (Unit × Recording) :=
  (recording.transition command).map fun next => ((), next)

/-- Gives the sink up. Doing so again changes nothing. -/
def giveUp (recording : Recording) : Recording :=
  if recording.aborted then recording
  else { recording with finished := true, aborted := true }.record .aborted

end Recording

/-- The sink that records. -/
def recordingSink : Sink Recording where
  defineDocument document :=
    Recording.attempt .defineDocument (Entry.defineDocument document.path)
      (Recording.keepDocument document)
  issue command :=
    Recording.attempt command.operation (fun _ => command.entry) (Recording.carryOut command)
  abort recording := ([], recording.giveUp)

end DebugSymbols
