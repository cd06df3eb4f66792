import DebugSymbols.Guid

/-!
# Source documents

A document is a source file that line tables refer to: its path together with three identifiers
which say what kind of file it is. Line tables name a document by its position in the tree.
-/

namespace DebugSymbols

/-- The position of a document in a tree. -/
structure DocumentId where
  index : Nat
deriving DecidableEq, Repr, Inhabited

/-- The text of a position, as in `#3`. -/
def DocumentId.text (id : DocumentId) : String := s!"#{id.index}"

/-- A source file. -/
structure Document where
  path : String
  language : Guid
  vendor : Guid
  /-- The type of the document, which is text in every known store. -/
  kind : Guid
deriving DecidableEq, Repr, Inhabited

namespace Document

/-- The language C#. -/
def csharpLanguage : Guid := ⟨0x3f5162f807c611d3905300c04fa302a1⟩

/-- The vendor Microsoft. -/
def microsoftVendor : Guid := ⟨0x994b45c4e6e911d2903f00c04fa302a1⟩

/-- The document type for text. -/
def textKind : Guid := ⟨0x5a869d0b661111d3bd2a0000f80849bd⟩

/-- A C# source file, which is what a document is unless something else is said. -/
def csharp (path : String) : Document := ⟨path, csharpLanguage, microsoftVendor, textKind⟩

/-- Whether two documents agree in everything but the path. -/
def sameKind (a b : Document) : Bool :=
  a.language == b.language && a.vendor == b.vendor && a.kind == b.kind

end Document

end DebugSymbols
