import DebugSymbols.Names
import DebugSymbols.Sink.Protocol
import DebugSymbols.Xml.Writer

/-!
# The XML store

A sink that writes every call as XML. The elements that are open form a stack with `symbols` at its
bottom, and an element is closed only while it is on top. Apart from that the protocol is not
checked.
-/

namespace DebugSymbols.Xml

/-- The state of an XML store. -/
structure Store (ω : Type) where
  writer : Writer ω
  nextHandle : Nat
  /-- The names of the open elements, the innermost first. -/
  openElements : List String
  finished : Bool

namespace Store

variable {ω : Type}

/-- The refusal of an operation. -/
def refuse {α : Type} (operation : Operation) (refusal : Refusal) : Attempt (Store ω) α :=
  throw (.sinkFailure operation refusal)

/-- Makes the words of a failing device the refusal of an operation. -/
def onWriter (operation : Operation) (step : Writer ω → Except String Unit × Writer ω) :
    Attempt (Store ω) Unit :=
  .ofOutcome fun store =>
    match step store.writer with
    | (.ok _, writer) => (.ok (), { store with writer })
    | (.error text, writer) =>
      (.error (.sinkFailure operation (.device text)), { store with writer })

/-- Writes a piece of markup, unless the store is finished. -/
def put (device : Device ω) (operation : Operation) (markup : Markup) :
    Attempt (Store ω) Unit := do
  if (← get).finished then refuse operation .alreadyClosed
  else onWriter operation (Writer.put device markup)

/-- Writes an opening tag and counts its element as open. -/
def openElement (device : Device ω) (operation : Operation) (tag : Tag) :
    Attempt (Store ω) Unit := do
  put device operation (.opening tag)
  modify fun store => { store with openElements := tag.name :: store.openElements }

/-- Makes sure that an element is the innermost open one. -/
def expectOpen (operation : Operation) (name : String) : Attempt (Store ω) Unit := do
  match (← get).openElements with
  | innermost :: _ =>
    if innermost = name then pure () else refuse operation (.wrongElement name innermost)
  | [] => refuse operation (.noElement name)

/-- Writes the closing tag of the innermost open element, which has to be the named one. -/
def closeElement (device : Device ω) (operation : Operation) (name : String) :
    Attempt (Store ω) Unit := do
  expectOpen operation name
  put device operation (.closing name)
  modify fun store => { store with openElements := store.openElements.tail }

/-- The tag that names a token, with the name of its member if it is known. -/
def tokenTag (names : Option Names) (name : String) (token : Token) : Tag :=
  let known := match names.bind fun names => names.get? token with
    | some member => [Attribute.free "name" member.fullName]
    | none => []
  ⟨name, Attribute.plain "token" token.text :: known⟩

/-- The tag of a document. -/
def documentTag (handle : Nat) (document : Document) : Tag :=
  ⟨"document",
    [.plain "id" (toString handle),
      .free "path" document.path,
      .plain "language" document.language.text,
      .plain "vendor" document.vendor.text,
      .plain "type" document.kind.text]⟩

/-- The tag of a sequence point; of a hidden one only the offset counts. -/
def pointTag (point : SequencePoint) : Tag :=
  let region : List Attribute :=
    if point.isHidden then [.plain "hidden" "true"]
    else
      [.plain "startLine" (toString point.startLine.toNat),
        .plain "startColumn" (toString point.startColumn.toNat),
        .plain "endLine" (toString point.endLine.toNat),
        .plain "endColumn" (toString point.endColumn.toNat)]
  ⟨"entry", .plain "offset" (Text.hexOffset point.offset) :: region⟩

/-- The tag of a local variable. -/
def variableTag (local_ : LocalVariable) : Tag :=
  ⟨"local",
    [.free "name" local_.name,
      .plain "slot" (toString local_.slot.toNat),
      .plain "signature" local_.signature.text,
      .plain "addressKind" local_.addressKind.name,
      .plain "startOffset" (Text.hexOffset local_.start),
      .plain "endOffset" (Text.hexOffset local_.stop),
      .plain "attributes" (toString local_.attributes.toNat)]⟩

/-- The tag of a constant. -/
def constantTag (name : String) (value : ConstantValue) (signature : Token) : Tag :=
  ⟨"constant",
    [.free "name" name,
      .plain "type" value.kind,
      .free "value" value.text,
      .plain "signature" signature.text]⟩

/-- The tag of a symbol attribute. -/
def attributeTag (parent : Token) (name : String) (data : List UInt8) : Tag :=
  ⟨"attribute",
    [.plain "parent" parent.text, .free "name" name, .plain "data" (Text.upperHexBytes data)]⟩

/-- Writes points one after the other. -/
def putPoints (device : Device ω) : List SequencePoint → Attempt (Store ω) Unit
  | [] => pure ()
  | point :: rest => do
    put device .defineSequencePoints (.single (pointTag point))
    putPoints device rest

/-- Writes a document under the next handle. -/
def defineDocument (device : Device ω) (document : Document) :
    Attempt (Store ω) DocumentHandle := do
  let handle := (← get).nextHandle
  put device .defineDocument (.single (documentTag handle document))
  modify fun store => { store with nextHandle := store.nextHandle + 1 }
  return ⟨handle⟩

/-- Ends the outermost element and flushes the device. -/
def close (device : Device ω) : Attempt (Store ω) Unit := do
  let depth := (← get).openElements.length
  if depth ≠ 1 then refuse .close (.elementsStillOpen (depth - 1))
  else
    closeElement device .close "symbols"
    onWriter .close (Writer.flush device)
    modify fun store => { store with finished := true }

/-- Writes a command. -/
def issue (device : Device ω) (names : Option Names) : Command → Attempt (Store ω) Unit
  | .setUserEntryPoint method =>
    put device .setUserEntryPoint (.single (tokenTag names "entryPoint" method))
  | .openMethod method => openElement device .openMethod (tokenTag names "method" method)
  | .closeMethod => closeElement device .closeMethod "method"
  | .openScope start =>
    openElement device .openScope ⟨"scope", [.plain "startOffset" (Text.hexOffset start)]⟩
  | .closeScope stop => do
    expectOpen .closeScope "scope"
    put device .closeScope (.single ⟨"end", [.plain "offset" (Text.hexOffset stop)]⟩)
    closeElement device .closeScope "scope"
  | .defineSequencePoints document batch =>
    if !batch.isConsistent then refuse .defineSequencePoints .unevenPoints
    else do
      openElement device .defineSequencePoints
        ⟨"sequencePoints", [.plain "document" (toString document.index)]⟩
      putPoints device batch.points
      closeElement device .defineSequencePoints "sequencePoints"
  | .defineLocalVariable local_ =>
    put device .defineLocalVariable (.single (variableTag local_))
  | .defineConstant name value signature =>
    put device .defineConstant (.single (constantTag name value signature))
  | .setSymbolAttribute parent name data =>
    put device .setSymbolAttribute (.single (attributeTag parent name data))
  | .close => close device

/-- Gives the store up: the device is flushed and nothing is written any more. -/
def giveUp (device : Device ω) (store : Store ω) : List Notice × Store ω :=
  if store.finished then ([], store)
  else
    match Writer.flush device store.writer with
    | (.ok _, writer) => ([], { store with writer, finished := true })
    | (.error text, writer) => ([.flushFailed text], { store with writer, finished := true })

/-- Writes the head of a store: the declaration and the opening tag of the outermost element. -/
def start (device : Device ω) (state : ω) : Except SymbolError Unit × Store ω :=
  let head : Attempt (Store ω) Unit := do
    put device .createStore .declaration
    openElement device .createStore ⟨"symbols", []⟩
  head.outcome ⟨⟨state, 0, false⟩, 0, [], false⟩

end Store

/-- The sink that writes XML to a device, with names for the methods that have one. -/
def storeSink {ω : Type} (device : Device ω) (names : Option Names) : Sink (Store ω) where
  defineDocument := Store.defineDocument device
  issue := Store.issue device names
  abort := Store.giveUp device

end DebugSymbols.Xml
