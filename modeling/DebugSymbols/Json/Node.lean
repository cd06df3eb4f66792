import DebugSymbols.Json.Token

/-!
# JSON nodes

The value of a text as a tree. A text that breaks off has a tree as well: it holds what was there,
and a break where it ended. A reader that walks the tree from left to right thus meets the faults of
the text in their places among the values.

The tree is built from the tokens with a stack of unfinished arrays and objects, so that any depth
of nesting can be passed over.
-/

namespace DebugSymbols.Json

/-- A value, possibly broken off. -/
inductive Node
  | null
  | boolean (value : Bool)
  | number (literal : Literal)
  | string (text : Except Fault String)
  /-- An array, with a break if it does not end behind its last item. -/
  | array (items : List Node) (tail : Option Break)
  /-- An object, with a break if it does not end behind its last member. -/
  | object (members : List (Except Fault String × Node)) (tail : Option Break)
  /-- The text breaks off instead of a value. -/
  | broken (place : Break)
deriving Inhabited

/-- A member of an object: its key, if it can be read, and its value. -/
abbrev Member : Type := Except Fault String × Node

/-- The value of a text, and whether something other than blanks follows it. -/
structure Document where
  root : Node
  trailing : Bool
deriving Inhabited

/-- An unfinished array or object; items and members last first. -/
inductive Frame
  | array (items : List Node)
  | object (members : List Member)
  /-- An object in which a value for a key has to come. -/
  | member (members : List Member) (key : Except Fault String)

/-- What has to come next. -/
inductive Place
  | value
  /-- An item of an array, or its end. -/
  | firstItem
  /-- A comma, or the end of an array. -/
  | afterItem
  /-- A key of an object, or its end. -/
  | firstKey
  | key
  | colon
  /-- A comma, or the end of an object. -/
  | afterMember
  /-- Nothing. -/
  | done (document : Document)

/-- A tree in the course of being built. -/
structure Builder where
  place : Place
  frames : List Frame

namespace Builder

/-- Nothing built yet. -/
def start : Builder := ⟨.value, []⟩

/-- Puts a complete value into the innermost frame. -/
def deliver (node : Node) : List Frame → Builder
  | [] => ⟨.done ⟨node, false⟩, []⟩
  | .array items :: rest => ⟨.afterItem, .array (node :: items) :: rest⟩
  | .object members :: rest => ⟨.afterMember, .object members :: rest⟩
  | .member members key :: rest => ⟨.afterMember, .object ((key, node) :: members) :: rest⟩

/-- Closes all frames around a node in which the text breaks off. -/
def collapse (node : Node) (place : Break) : List Frame → Node
  | [] => node
  | .array items :: rest =>
    collapse (.array (node :: items).reverse (some place)) place rest
  | .object members :: rest => collapse (.object members.reverse (some place)) place rest
  | .member members key :: rest =>
    collapse (.object ((key, node) :: members).reverse (some place)) place rest

/-- The document of a text that breaks off. -/
def breakOff (builder : Builder) (place : Break) : Document :=
  let inside := match builder.place, builder.frames with
    | .afterItem, .array items :: rest =>
      collapse (.array items.reverse (some place)) place rest
    | .firstKey, .object members :: rest | .key, .object members :: rest
    | .afterMember, .object members :: rest =>
      collapse (.object members.reverse (some place)) place rest
    | _, frames => collapse (.broken place) place frames
  ⟨inside, false⟩

/-- Breaks off where no token or another token should have come. -/
def stop (builder : Builder) (place : Break) : Builder := ⟨.done (builder.breakOff place), []⟩

/-- Begins a value. -/
def takeValue (builder : Builder) (token : Token) : Builder :=
  match token with
  | .null => deliver .null builder.frames
  | .boolean value => deliver (.boolean value) builder.frames
  | .number literal => deliver (.number literal) builder.frames
  | .string text => deliver (.string text) builder.frames
  | .openBracket => ⟨.firstItem, .array [] :: builder.frames⟩
  | .openBrace => ⟨.firstKey, .object [] :: builder.frames⟩
  | .brokenString place | .broken place => builder.stop place
  | _ => builder.stop (.plain .illFormed)

/-- Begins the value of a key. -/
def takeKey (builder : Builder) (token : Token) : Builder :=
  match token, builder.frames with
  | .string key, .object members :: rest => ⟨.colon, .member members key :: rest⟩
  | .brokenString place, _ => builder.stop place
  | _, _ => builder.stop (.plain .illFormed)

/-- Takes one token. -/
def take (builder : Builder) (token : Token) : Builder :=
  match builder.place, token, builder.frames with
  | .value, _, _ => builder.takeValue token
  | .firstItem, .closeBracket, .array items :: rest
  | .afterItem, .closeBracket, .array items :: rest => deliver (.array items.reverse none) rest
  | .firstItem, _, _ => builder.takeValue token
  | .afterItem, .comma, frames => ⟨.value, frames⟩
  | .firstKey, .closeBrace, .object members :: rest
  | .afterMember, .closeBrace, .object members :: rest =>
    deliver (.object members.reverse none) rest
  | .firstKey, _, _ | .key, _, _ => builder.takeKey token
  | .colon, .colon, frames => ⟨.value, frames⟩
  | .afterMember, .comma, frames => ⟨.key, frames⟩
  | .done document, _, _ => ⟨.done { document with trailing := true }, []⟩
  | .afterItem, _, _ | .colon, _, _ | .afterMember, _, _ => builder.stop (.plain .illFormed)

/-- The document that is there when the tokens end. -/
def finish (builder : Builder) : Document :=
  match builder.place with
  | .done document => document
  | _ => builder.breakOff (.plain .endOfText)

end Builder

/-- The document of a text. -/
def Document.ofText (text : String) : Document :=
  ((tokens text).foldl Builder.take Builder.start).finish

namespace Node

mutual

/-- Passes over a value that nobody asks for. -/
def skip : Node → Except Fault Unit
  | array items tail => do
    skipItems items
    match tail with
    | some place => .error place.onSkip
    | none => .ok ()
  | object members tail => do
    skipMembers members
    match tail with
    | some place => .error place.onSkip
    | none => .ok ()
  | broken place => .error place.onSkip
  | _ => .ok ()

/-- Passes over the items of an array. -/
def skipItems : List Node → Except Fault Unit
  | [] => .ok ()
  | node :: rest => do
    node.skip
    skipItems rest

/-- Passes over the members of an object. Keys are passed over like other strings. -/
def skipMembers : List (Except Fault String × Node) → Except Fault Unit
  | [] => .ok ()
  | (_, node) :: rest => do
    node.skip
    skipMembers rest

end

end Node

end DebugSymbols.Json
