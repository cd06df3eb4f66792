import DebugSymbols.Json.Node

/-!
# JSON values

A value that was read without asking for a type, and the two ways to write one: compact, on one
line, and indented. The members of an object that was read are in the order of their keys.
-/

namespace DebugSymbols.Json

/-- A value. -/
inductive Value
  | null
  | boolean (value : Bool)
  | number (value : Number)
  | string (text : String)
  | array (items : List Value)
  | object (members : List (String × Value))
deriving Repr, Inhabited

namespace Value

/-- Puts a member into a list in the order of keys, in place of one with the same key. -/
def insertMember (key : String) (value : Value) :
    List (String × Value) → List (String × Value)
  | [] => [(key, value)]
  | (other, old) :: rest =>
    if key < other then (key, value) :: (other, old) :: rest
    else if key = other then (key, value) :: rest
    else (other, old) :: insertMember key value rest

/-- Reads a value of any type; arrays and objects may be nested `levels` deep. -/
def ofNode : (levels : Nat) → Node → Except Fault Value
  | _, .null => .ok .null
  | _, .boolean value => .ok (.boolean value)
  | _, .number literal => literal.read.map .number
  | _, .string text => text.map .string
  | _, .broken place => .error place.onRead
  | 0, .array _ _ | 0, .object _ _ => .error .illFormed
  | levels + 1, .array items tail => do
    let values ← items.mapM (ofNode levels)
    match tail with
    | some place => .error place.onRead
    | none => .ok (.array values)
  | levels + 1, .object members tail => do
    let pairs ← members.mapM fun (key, node) => do
      let key ← key
      let value ← ofNode levels node
      return (key, value)
    match tail with
    | some place => .error place.onRead
    | none =>
      .ok (.object (pairs.foldl (fun sorted (key, value) => insertMember key value sorted) []))

/-- One character inside quotes. -/
def quotedChar (c : Char) : List Char :=
  match c with
  | '"' => ['\\', '"']
  | '\\' => ['\\', '\\']
  | '\x08' => ['\\', 'b']
  | '\x0c' => ['\\', 'f']
  | '\n' => ['\\', 'n']
  | '\r' => ['\\', 'r']
  | '\t' => ['\\', 't']
  | _ => if c.toNat < 0x20 then '\\' :: 'u' :: Text.paddedHexDigits 4 c.toNat else [c]

/-- Text in double quotes. -/
def quoted (text : String) : String :=
  String.ofList ('"' :: (text.toList.flatMap quotedChar ++ ['"']))

/-- The text of a truth value. -/
def booleanText (value : Bool) : String := if value then "true" else "false"

mutual

/-- A value on one line without blanks. -/
def compact : Value → String
  | null => "null"
  | boolean value => booleanText value
  | number value => value.text
  | string text => quoted text
  | array items => "[" ++ ",".intercalate (compactItems items) ++ "]"
  | object members => "\x7b" ++ ",".intercalate (compactMembers members) ++ "\x7d"

/-- The items of an array. -/
def compactItems : List Value → List String
  | [] => []
  | value :: rest => value.compact :: compactItems rest

/-- The members of an object. -/
def compactMembers : List (String × Value) → List String
  | [] => []
  | (key, value) :: rest => (quoted key ++ ":" ++ value.compact) :: compactMembers rest

end

/-- A line break with the indentation at a depth. -/
def lineBreak (depth : Nat) : String := String.ofList ('\n' :: List.replicate (2 * depth) ' ')

/-- Parts between brackets, each on a line of its own, unless there is none. -/
def bracketed (first last : String) (depth : Nat) (parts : List String) : String :=
  if parts.isEmpty then first ++ last
  else
    first ++ lineBreak (depth + 1) ++ ("," ++ lineBreak (depth + 1)).intercalate parts ++
      lineBreak depth ++ last

mutual

/-- A value with every item and member on a line of its own. -/
def indented (depth : Nat) : Value → String
  | null => "null"
  | boolean value => booleanText value
  | number value => value.text
  | string text => quoted text
  | array items => bracketed "[" "]" depth (indentedItems (depth + 1) items)
  | object members => bracketed "\x7b" "\x7d" depth (indentedMembers (depth + 1) members)

/-- The items of an array. -/
def indentedItems (depth : Nat) : List Value → List String
  | [] => []
  | value :: rest => value.indented depth :: indentedItems depth rest

/-- The members of an object. -/
def indentedMembers (depth : Nat) : List (String × Value) → List String
  | [] => []
  | (key, value) :: rest =>
    (quoted key ++ ": " ++ value.indented depth) :: indentedMembers depth rest

end

/-- The integer of a number that fits 64 bits with a sign. -/
def asInt64? : Value → Option Int
  | number (.integer value) =>
    if Int64.minValue.toInt ≤ value ∧ value ≤ Int64.maxValue.toInt then some value else none
  | _ => none

/-- The integer of a number that fits 64 bits without a sign. -/
def asUInt64? : Value → Option UInt64
  | number (.integer value) =>
    if 0 ≤ value ∧ value < UInt64.size then some (UInt64.ofNat value.toNat) else none
  | _ => none

/-- The floating-point word of a number; integers are rounded. -/
def asFloat? : Value → Option UInt64
  | number (.integer value) =>
    some (UInt64.ofNat (Decimal.double.round (value < 0) value.natAbs 1))
  | number (.float word) => some word
  | _ => none

end Value

end DebugSymbols.Json
