/-!
# Ranges of characters

A class of characters is a list of ranges of code points. Each range holds both of its ends.
-/

namespace DebugSymbols.Text

/-- A class of characters. -/
abbrev CharClass : Type := List (Nat × Nat)

/-- Whether a character belongs to a class. -/
def CharClass.holds (ranges : CharClass) (c : Char) : Bool :=
  ranges.any fun (first, last) => first ≤ c.toNat && c.toNat ≤ last

end DebugSymbols.Text
