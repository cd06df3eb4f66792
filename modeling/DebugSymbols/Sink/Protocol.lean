import DebugSymbols.Attempt
import DebugSymbols.Constant
import DebugSymbols.Notice
import DebugSymbols.Sink.Batch

/-!
# Symbol sinks

A sink takes the debug information of a program call by call. Documents are defined first and get
handles; methods are opened and closed one after the other; within a method come its sequence
points, one tree of scopes with variables and constants, and attributes. At the end the sink is
closed, or aborted if it is given up.

A sink is described by its operations on a state of any type. Each call may fail, and a failed call
may have changed the state.
-/

namespace DebugSymbols

/-- How the place of a variable is described. Only slots of the evaluation frame are in use. -/
inductive AddressKind
  | ilOffset
deriving DecidableEq, Repr, Inhabited

/-- The number of an address kind. -/
def AddressKind.code : AddressKind → UInt32
  | ilOffset => 1

/-- The name of an address kind. -/
def AddressKind.name : AddressKind → String
  | ilOffset => "IlOffset"

/-- A variable together with the range in which it is visible. -/
structure LocalVariable where
  name : String
  attributes : UInt32
  signature : Token
  addressKind : AddressKind
  slot : UInt32
  start : UInt32
  stop : UInt32
deriving DecidableEq, Repr, Inhabited

/-- A call to a sink that answers nothing but success or failure. -/
inductive Command
  | setUserEntryPoint (method : Token)
  | openMethod (method : Token)
  | closeMethod
  | openScope (start : UInt32)
  | closeScope (stop : UInt32)
  | defineSequencePoints (document : DocumentHandle) (batch : Batch)
  | defineLocalVariable (variable_ : LocalVariable)
  | defineConstant (name : String) (value : ConstantValue) (signature : Token)
  | setSymbolAttribute (parent : Token) (name : String) (data : List UInt8)
  | close
deriving DecidableEq, Repr

/-- The operation that a command asks for. -/
def Command.operation : Command → Operation
  | setUserEntryPoint _ => .setUserEntryPoint
  | openMethod _ => .openMethod
  | closeMethod => .closeMethod
  | openScope _ => .openScope
  | closeScope _ => .closeScope
  | defineSequencePoints _ _ => .defineSequencePoints
  | defineLocalVariable _ => .defineLocalVariable
  | defineConstant _ _ _ => .defineConstant
  | setSymbolAttribute _ _ _ => .setSymbolAttribute
  | close => .close

/-- A sink with states of type `σ`. -/
structure Sink (σ : Type) where
  /-- Defines a document and answers the handle under which it is known. -/
  defineDocument : Document → Attempt σ DocumentHandle
  issue : Command → Attempt σ Unit
  /-- Gives the sink up. This cannot fail; what goes wrong is noticed. -/
  abort : σ → List Notice × σ

/-- A call to a sink other than giving it up. -/
inductive Call
  | define (document : Document)
  | issue (command : Command)
deriving DecidableEq, Repr

/-- The operation that a call asks for. -/
def Call.operation : Call → Operation
  | define _ => .defineDocument
  | issue command => command.operation

/-- Makes a call; answers the handle of a defined document. -/
def Sink.perform {σ : Type} (sink : Sink σ) : Call → Attempt σ (Option DocumentHandle)
  | .define document => some <$> sink.defineDocument document
  | .issue command => (fun _ => none) <$> sink.issue command

end DebugSymbols
