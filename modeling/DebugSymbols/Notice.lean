import DebugSymbols.Document
import DebugSymbols.Error

/-!
# Notices

While it works the library tells what it does and what looks wrong. A notice says what happened; its
level and its wording stand here.
-/

namespace DebugSymbols

/-- How much a notice matters. -/
inductive Level
  | warn
  | info
  | debug
  | trace
deriving DecidableEq, Repr

namespace Level

/-- The place of a level from the most to the least important. -/
def rank : Level → Nat
  | warn => 0
  | info => 1
  | debug => 2
  | trace => 3

/-- The name of a level. -/
def name : Level → String
  | warn => "WARN"
  | info => "INFO"
  | debug => "DEBUG"
  | trace => "TRACE"

end Level

/-- Something the library tells. -/
inductive Notice
  /-- A document comes again with other identifiers; the first ones are kept. -/
  | kindMismatch (path : String)
  /-- A target of the path map is a source of it too. -/
  | chainedMap
  /-- A sink was released before it was complete. -/
  | unfinishedStore
  /-- The device of an aborted store could not be flushed. -/
  | flushFailed (text : String)
  | relocated (methods changed defined points : Nat)
  | remapped (count documents : Nat)
  | entryPoint (label : String)
  | registered (path : String) (handle : DocumentHandle)
  | emitting (label : String) (points documents : Nat)
  | remapping (id : DocumentId) (path target : String)
  | scope (offset stop : UInt32) (method : Token) (locals constants : Nat)
deriving DecidableEq, Repr

namespace Notice

/-- The level of a notice. -/
def level : Notice → Level
  | kindMismatch _ | chainedMap | unfinishedStore | flushFailed _ => .warn
  | relocated .. | remapped .. => .info
  | entryPoint _ | registered .. | emitting .. | remapping .. => .debug
  | scope .. => .trace

/-- The wording of a notice. -/
def text : Notice → String
  | kindMismatch path =>
    s!"Document {path} appears with different language/vendor/type GUIDs; " ++
      "keeping the first registration"
  | chainedMap => "Path mapping contains chained entries; remapping is not idempotent"
  | unfinishedStore => "Symbol sink released without completing; aborting partial store"
  | flushFailed text => s!"Failed to flush aborted XML output: {text}"
  | relocated methods changed defined points =>
    s!"Rewrote {methods} functions: {changed} documents remapped, {defined} registered, " ++
      s!"{points} sequence points"
  | remapped count documents => s!"{count} of {documents} documents remapped"
  | entryPoint label => s!"Setting user entry point {label}"
  | registered path handle => s!"Registered document {path} as {handle.text}"
  | emitting label points documents =>
    s!"Emitting method {label} ({points} sequence points in {documents} documents)"
  | remapping id path target => s!"Remapping document {id.text}: {path} -> {target}"
  | scope offset stop method locals constants =>
    s!"Scope [{Text.hexOffset offset}, {Text.hexOffset stop}) of {method.text}: " ++
      s!"{locals} variables, {constants} constants"

/-- The notices of a level or of a more important one. -/
def upTo (level : Level) (notices : List Notice) : List Notice :=
  notices.filter fun notice => notice.level.rank ≤ level.rank

end Notice

end DebugSymbols
