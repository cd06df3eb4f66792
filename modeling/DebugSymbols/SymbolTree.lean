import DebugSymbols.Method

/-!
# The symbol tree

The complete debug information of one program: its documents, its methods and its entry point. Line
groups refer to documents by position, and nothing makes sure that the position exists.
-/

namespace DebugSymbols

/-- The debug information of one program. -/
structure SymbolTree where
  documents : List Document
  methods : List Method
  entryPoint : Option Token
deriving Repr, Inhabited

namespace SymbolTree

/-- A tree with nothing in it. -/
def empty : SymbolTree := ⟨[], [], none⟩

/-- The document at a position. -/
def document? (tree : SymbolTree) (id : DocumentId) : Option Document := tree.documents[id.index]?

/-- Adds a document at the end and gives its position. -/
def addDocument (tree : SymbolTree) (document : Document) : DocumentId × SymbolTree :=
  (⟨tree.documents.length⟩, { tree with documents := tree.documents ++ [document] })

/-- Adds a method at the end. -/
def addMethod (tree : SymbolTree) (method : Method) : SymbolTree :=
  { tree with methods := tree.methods ++ [method] }

/-- Gives the document at a position another path; nothing changes if there is no such document. -/
def setPath (tree : SymbolTree) (id : DocumentId) (path : String) : SymbolTree :=
  { tree with documents := tree.documents.modify id.index fun document => { document with path } }

/-- The first method with a token. -/
def method? (tree : SymbolTree) (token : Token) : Option Method :=
  tree.methods.find? fun method => method.token == token

/-- Puts a position into an ascending list of positions, once. -/
def insertId (id : DocumentId) : List DocumentId → List DocumentId
  | [] => [id]
  | other :: rest =>
    if id.index < other.index then id :: other :: rest
    else if id.index = other.index then other :: rest
    else other :: insertId id rest

/-- The positions that line groups refer to, ascending and each of them once. Groups without points
count, and so do positions without a document. -/
def references (tree : SymbolTree) : List DocumentId :=
  (tree.methods.flatMap fun method => method.lines.map (·.document)).foldr insertId []

end SymbolTree

/-- Takes the tree out of a source, which is empty from then on. -/
def takeTree (source : Option SymbolTree) : Except SymbolError SymbolTree × Option SymbolTree :=
  match source with
  | some tree => (.ok tree, none)
  | none => (.error .empty, none)

end DebugSymbols
