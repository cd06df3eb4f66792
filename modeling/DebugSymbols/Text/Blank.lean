import DebugSymbols.Text.Range

/-!
# Blanks

The characters that count as white space at the end of a line: those with the Unicode property
`White_Space`.
-/

namespace DebugSymbols.Text

/-- White space. -/
def whiteSpace : CharClass :=
  [(0x09, 0x0D), (0x20, 0x20), (0x85, 0x85), (0xA0, 0xA0), (0x1680, 0x1680), (0x2000, 0x200A),
    (0x2028, 0x2029), (0x202F, 0x202F), (0x205F, 0x205F), (0x3000, 0x3000)]

/-- Whether a character is a blank. -/
def isBlank (c : Char) : Bool := whiteSpace.holds c

/-- A line without the blanks at its end. -/
def trimEnd (line : List Char) : List Char := (line.reverse.dropWhile isBlank).reverse

end DebugSymbols.Text
