import DebugSymbols.Text.Hex

/-!
# GUIDs

Languages, vendors and document types are named by 128-bit identifiers. They are written as 36
lower-case characters in groups of 8, 4, 4, 4 and 12 digits, and read in either case.
-/

namespace DebugSymbols

/-- A 128-bit identifier, as the number that its hexadecimal digits denote. -/
structure Guid where
  bits : BitVec 128
deriving DecidableEq, Repr, Inhabited

namespace Guid

/-- The lengths of the digit groups. -/
def groups : List Nat := [8, 4, 4, 4, 12]

/-- The digits in groups of the given lengths, with hyphens between them. -/
def hyphenate : List Nat → List Char → List Char
  | [], _ => []
  | [n], digits => digits.take n
  | n :: rest, digits => digits.take n ++ '-' :: hyphenate rest (digits.drop n)

/-- The digits of hyphenated groups of the given lengths; none if a group is too short, a hyphen is
missing or something follows the last group. -/
def dehyphenate? : List Nat → List Char → Option (List Char)
  | [], [] => some []
  | [], _ :: _ => none
  | [n], chars => if chars.length = n then some chars else none
  | n :: rest, chars =>
    match chars.drop n with
    | '-' :: tail => (dehyphenate? rest tail).map (chars.take n ++ ·)
    | _ => none

/-- The text of a GUID. -/
def text (guid : Guid) : String :=
  String.ofList (hyphenate groups (Text.paddedHexDigits 32 guid.bits.toNat))

/-- Reads the text of a GUID in either case. -/
def parse? (text : String) : Option Guid :=
  match dehyphenate? groups text.toList with
  | some digits => (Text.ofDigits? 16 digits).map fun n => ⟨BitVec.ofNat 128 n⟩
  | none => none

end Guid

end DebugSymbols
