import DebugSymbols.Json.Node

/-!
# Decoding JSON nodes

A decoder reads a node as a value of some type. It gets the number of levels that arrays and objects
may still be nested. Decoders walk a node from left to right and stop at the first fault, be it one
of the text or one of its content.

A record is an object with known fields; other fields are passed over. It may also be written as an
array of its fields in their order. Its fields go into a draft, one by one, and the draft becomes
the value in the end.
-/

namespace DebugSymbols.Json

/-- A way to read nodes as values of a type. -/
abbrev Decoder (α : Type) : Type := (levels : Nat) → Node → Except Fault α

/-- Fails with a fault of the content. -/
def reject {α : Type} (fault : ContentFault) : Except Fault α := .error (.content fault)

/-- The fault of a node of the wrong type. A number or a string is read before it is refused. -/
def wrongType {α : Type} (expected : String) (node : Node) : Except Fault α :=
  match node with
  | .null => reject (.wrongType "null" expected)
  | .boolean value =>
    reject (.wrongType ("boolean `" ++ (if value then "true" else "false") ++ "`") expected)
  | .number literal => do
    match ← literal.read with
    | .integer value => reject (.wrongType ("integer `" ++ toString value ++ "`") expected)
    | .float word =>
      reject (.wrongType ("floating point `" ++ (Number.float word).text ++ "`") expected)
  | .string text => do
    reject (.wrongType ("string " ++ Text.quoted (← text)) expected)
  | .array _ _ => reject (.wrongType "sequence" expected)
  | .object _ _ => reject (.wrongType "map" expected)
  | .broken place => .error place.onRead

namespace Decoder

variable {α : Type}

/-- Reads a string. -/
def string : Decoder String := fun _ node =>
  match node with
  | .string text => text
  | _ => wrongType "a string" node

/-- Reads a truth value. -/
def boolean : Decoder Bool := fun _ node =>
  match node with
  | .boolean value => .ok value
  | _ => wrongType "a boolean" node

/-- Reads a natural number below `limit`; `expected` names the type. -/
def natural (limit : Nat) (expected : String) : Decoder Nat := fun _ node =>
  match node with
  | .number literal => do
    match ← literal.read with
    | .integer value =>
      if 0 ≤ value ∧ value < limit then .ok value.toNat else reject (.outOfRange value expected)
    | .float _ => wrongType expected node
  | _ => wrongType expected node

/-- Reads a 32-bit number. -/
def uint32 : Decoder UInt32 := fun levels node =>
  (natural UInt32.size "u32" levels node).map UInt32.ofNat

/-- Reads a 16-bit number. -/
def uint16 : Decoder UInt16 := fun levels node =>
  (natural UInt16.size "u16" levels node).map UInt16.ofNat

/-- Reads a position. -/
def position : Decoder Nat := natural UInt64.size "usize"

/-- Reads a value or nothing. -/
def nullable (decoder : Decoder α) : Decoder (Option α) := fun levels node =>
  match node with
  | .null => .ok none
  | _ => (decoder levels node).map some

/-- The end of an array or an object all of whose parts have been read. -/
def ending (value : α) (tail : Option Break) : Except Fault α :=
  match tail with
  | none => .ok value
  | some place => .error place.onRead

/-- Reads an array of values. -/
def list (decoder : Decoder α) : Decoder (List α) := fun levels node =>
  match node with
  | .array items tail =>
    match levels with
    | 0 => .error .illFormed
    | inner + 1 => do
      let values ← items.mapM (decoder inner)
      ending values tail
  | _ => wrongType "a sequence" node

/-- Reads an object with keys of any text. -/
def entries (decoder : Decoder α) : Decoder (List (String × α)) := fun levels node =>
  match node with
  | .object members tail =>
    match levels with
    | 0 => .error .illFormed
    | inner + 1 => do
      let pairs ← members.mapM fun (key, value) => do
        let key ← key
        let value ← decoder inner value
        return (key, value)
      ending pairs tail
  | _ => wrongType "a map" node

end Decoder

/-- A field of a record that is drafted as a `δ`. -/
structure Field (δ : Type) where
  name : String
  /-- Whether the draft has the field already. -/
  isFilled : δ → Bool
  /-- Reads the field into the draft. -/
  fill : δ → Decoder δ
  /-- Whether the field may be left out at the end of an array. -/
  optional : Bool

/-- The field of a draft that `get` finds and `set` puts there. -/
def Field.of {δ β : Type} (name : String) (get : δ → Option β) (set : δ → β → δ)
    (decoder : Decoder β) (optional : Bool) : Field δ where
  name := name
  isFilled draft := (get draft).isSome
  fill draft levels node := (decoder levels node).map (set draft)
  optional := optional

/-- A kind of record: what messages call it, its fields in order, an empty draft, and what becomes
of a draft that has been filled as far as the text went. -/
structure RecordKind (δ α : Type) where
  /-- What messages call it where something else was found. -/
  description : String
  /-- What messages call it where it has too few elements. -/
  countedDescription : String
  fields : List (Field δ)
  blank : δ
  finish : δ → Except ContentFault α

namespace RecordKind

variable {δ α : Type}

/-- Reads the members of an object into a draft. The same field twice is a fault at its key. -/
def fillMembers (kind : RecordKind δ α) (levels : Nat) : δ → List Member → Except Fault δ
  | draft, [] => .ok draft
  | draft, (key, node) :: rest => do
    let key ← key
    match kind.fields.find? fun field => field.name == key with
    | none =>
      node.skip
      kind.fillMembers levels draft rest
    | some field =>
      if field.isFilled draft then reject (.duplicateField field.name)
      else
        let draft ← field.fill draft levels node
        kind.fillMembers levels draft rest

/-- Reads the items of an array into a draft, one for each field. `index` counts the fields so far;
items beyond the last field are ill-formed. -/
def fillItems (kind : RecordKind δ α) (levels : Nat) (tail : Option Break) :
    (index : Nat) → List (Field δ) → δ → List Node → Except Fault δ
  | _, [], draft, [] => Decoder.ending draft tail
  | _, [], _, _ :: _ => .error .illFormed
  | index, field :: fields, draft, node :: rest => do
    let draft ← field.fill draft levels node
    kind.fillItems levels tail (index + 1) fields draft rest
  | index, field :: fields, draft, [] =>
    match tail with
    | some place => .error place.onRead
    | none =>
      if field.optional then kind.fillItems levels tail (index + 1) fields draft []
      else reject (.tooShort index kind.countedDescription)

/-- The value of a finished draft. -/
def complete (kind : RecordKind δ α) (draft : δ) : Except Fault α :=
  match kind.finish draft with
  | .ok value => .ok value
  | .error fault => reject fault

/-- Reads an array of the fields of a record. -/
def decodeItems (kind : RecordKind δ α) (levels : Nat) (items : List Node) (tail : Option Break) :
    Except Fault α :=
  match levels with
  | 0 => .error .illFormed
  | inner + 1 => do
    kind.complete (← kind.fillItems inner tail 0 kind.fields kind.blank items)

/-- Reads a record from an object or from an array. -/
def decoder (kind : RecordKind δ α) : Decoder α := fun levels node =>
  match node with
  | .array items tail => kind.decodeItems levels items tail
  | .object members tail =>
    match levels with
    | 0 => .error .illFormed
    | inner + 1 => do
      let draft ← kind.fillMembers inner kind.blank members
      kind.complete (← Decoder.ending draft tail)
  | _ => wrongType kind.description node

end RecordKind

/-- Reads a tuple: an array with one item for each field and no other form. -/
def RecordKind.tupleDecoder {δ α : Type} (kind : RecordKind δ α) : Decoder α := fun levels node =>
  match node with
  | .array items tail => kind.decodeItems levels items tail
  | _ => wrongType kind.description node

/-- A kind of record with a name. -/
def RecordKind.named {δ α : Type} (name : String) (fields : List (Field δ)) (blank : δ)
    (finish : δ → Except ContentFault α) : RecordKind δ α :=
  ⟨s!"struct {name}", s!"struct {name} with {fields.length} elements", fields, blank, finish⟩

/-- A kind of tuple. -/
def RecordKind.tuple {δ α : Type} (fields : List (Field δ)) (blank : δ)
    (finish : δ → Except ContentFault α) : RecordKind δ α :=
  let description := s!"a tuple of size {fields.length}"
  ⟨description, description, fields, blank, finish⟩

/-- A field that a draft needs for its value. -/
def require {α : Type} (name : String) : Option α → Except ContentFault α
  | some value => .ok value
  | none => .error (.missingField name)

end DebugSymbols.Json
