import DebugSymbols.Text.Quoted

/-!
# Faults of JSON text

A text is read from left to right and the first fault is the one reported: the text is no JSON, it
ends too early, or its content is not what was asked for. Only a fault of the content has words.
-/

namespace DebugSymbols.Json

/-- What is wrong with well-formed content. -/
inductive ContentFault
  /-- A value of the wrong type: what was found and what was expected. -/
  | wrongType (found expected : String)
  /-- An integer outside the range of its type. -/
  | outOfRange (found : Int) (expected : String)
  /-- An array that ends before the element with the given number. -/
  | tooShort (length : Nat) (expected : String)
  | missingField (name : String)
  | duplicateField (name : String)
  /-- A value that is neither a number nor a text for a token. -/
  | noToken
  | badToken (text : String)
  | badGuid (text : String)
deriving DecidableEq, Repr

/-- Why reading stopped. -/
inductive Fault
  | illFormed
  | endOfText
  | content (fault : ContentFault)
deriving DecidableEq, Repr

/-- The wording of a fault of the content. -/
def ContentFault.message : ContentFault → String
  | wrongType found expected => s!"invalid type: {found}, expected {expected}"
  | outOfRange found expected =>
    "invalid value: integer `" ++ toString found ++ "`, expected " ++ expected
  | tooShort length expected => s!"invalid length {length}, expected {expected}"
  | missingField name => "missing field `" ++ name ++ "`"
  | duplicateField name => "duplicate field `" ++ name ++ "`"
  | noToken => "data did not match any variant of untagged enum RawToken"
  | badToken text => s!"invalid token '{text}'"
  | badGuid text => s!"invalid GUID '{text}'"

/-- A place where a text breaks off. A value that nobody asks for is passed over less strictly than
it would be read, so there are two faults: one for each way to come here. -/
structure Break where
  onRead : Fault
  onSkip : Fault
deriving DecidableEq, Repr

/-- A break that is the same fault in both ways. -/
def Break.plain (fault : Fault) : Break := ⟨fault, fault⟩

end DebugSymbols.Json
