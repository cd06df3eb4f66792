import DebugSymbols.Dictionary
import DebugSymbols.Token

/-!
# Names of members

A method is labelled by its name if one is known, together with the type that declares it, and by
its token otherwise.
-/

namespace DebugSymbols

/-- A named member. -/
structure Member where
  declaringType : Option String
  name : String
deriving DecidableEq, Repr, Inhabited

/-- The name of a member behind the name of its type. -/
def Member.fullName (member : Member) : String :=
  match member.declaringType with
  | some type => type ++ "::" ++ member.name
  | none => member.name

/-- The members known by token. -/
abbrev Names : Type := Dictionary Token Member

/-- The label of a token: the full name of its member, or the text of the token. -/
def Names.label (names : Names) (token : Token) : String :=
  match names.get? token with
  | some member => member.fullName
  | none => token.text

end DebugSymbols
