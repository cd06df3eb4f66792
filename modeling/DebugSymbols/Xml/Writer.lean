import DebugSymbols.Xml.Markup

/-!
# Writing indented markup

Markup goes to a device, which may fail at every write and at every flush. Each piece of markup but
the first starts a new line, indented by two spaces for each element around it. An opening tag
indents what follows, and a closing tag takes that back, whether or not the device took them.
-/

namespace DebugSymbols.Xml

/-- A device that takes text, with states of type `ω`. A failure has words of its own. -/
structure Device (ω : Type) where
  write : String → ω → Except String Unit × ω
  flush : ω → Except String Unit × ω

/-- Writes texts one after the other up to the first failure. There is no write for an empty one. -/
def Device.writeAll {ω : Type} (device : Device ω) : List String → ω → Except String Unit × ω
  | [], state => (.ok (), state)
  | piece :: rest, state =>
    if piece.isEmpty then device.writeAll rest state
    else
      match device.write piece state with
      | (.ok _, next) => device.writeAll rest next
      | (.error text, next) => (.error text, next)

/-- The state of a writer. -/
structure Writer (ω : Type) where
  device : ω
  /-- The number of elements around what comes next. -/
  depth : Nat
  /-- Whether something was written before. -/
  started : Bool

namespace Writer

variable {ω : Type}

/-- The depth at which a piece of markup stands. -/
def depthAt (depth : Nat) : Markup → Nat
  | .closing _ => depth - 1
  | _ => depth

/-- The depth behind a piece of markup. -/
def depthAfter (depth : Nat) : Markup → Nat
  | .opening _ => depth + 1
  | .closing _ => depth - 1
  | _ => depth

/-- The line break and indentation at a depth. -/
def lineBreak (depth : Nat) : List String :=
  ["\n", String.ofList (List.replicate (2 * depth) ' ')]

/-- Writes a piece of markup. -/
def put (device : Device ω) (markup : Markup) (writer : Writer ω) :
    Except String Unit × Writer ω :=
  let lead := if writer.started then lineBreak (depthAt writer.depth markup) else []
  let (result, state) := device.writeAll (lead ++ markup.pieces) writer.device
  (result, ⟨state, depthAfter writer.depth markup, true⟩)

/-- Flushes the device. -/
def flush (device : Device ω) (writer : Writer ω) : Except String Unit × Writer ω :=
  let (result, state) := device.flush writer.device
  (result, { writer with device := state })

end Writer

end DebugSymbols.Xml
