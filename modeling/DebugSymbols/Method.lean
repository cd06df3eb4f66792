import DebugSymbols.Lines
import DebugSymbols.Scope

/-!
# Methods

The debug information of one method: its line groups, its tree of scopes, constants that belong to
the method as a whole, and the class and ranges that the compiler made for an iterator method.
-/

namespace DebugSymbols

/-- The debug information of one method. -/
structure Method where
  token : Token
  /-- The signature of the local variables. -/
  slotToken : Token
  lines : List LineGroup
  scope : Scope
  constants : List Constant
  /-- The class of an iterator method; empty for other methods. -/
  iteratorClass : String
  iteratorScopes : List Span
deriving Repr, Inhabited

namespace Method

/-- Whether the method is an iterator. -/
def isIterator (method : Method) : Bool := !method.iteratorClass.isEmpty

/-- The number of sequence points in all groups. -/
def pointCount (method : Method) : Nat := (method.lines.flatMap (·.points)).length

end Method

end DebugSymbols
