import DebugSymbols.Text.Combining
import DebugSymbols.Text.Unassigned

/-!
# Characters without a shape of their own

Some characters would not be recognised in a message: controls, format characters, spaces, fillers,
marks that melt into the character in front of them, and code points without a character.
-/

namespace DebugSymbols.Text

/-- Controls, format characters, line and paragraph separators, spaces other than U+0020, and
letters that are fillers: general categories `Cc`, `Cf`, `Zl`, `Zp` and `Zs`, and the property
`Default_Ignorable_Code_Point`. -/
def shapeless : CharClass :=
  [(0x0, 0x1F), (0x7F, 0xA0), (0xAD, 0xAD), (0x600, 0x605), (0x61C, 0x61C), (0x6DD, 0x6DD),
    (0x70F, 0x70F), (0x890, 0x891), (0x8E2, 0x8E2), (0x115F, 0x1160), (0x1680, 0x1680),
    (0x180E, 0x180E), (0x2000, 0x200F), (0x2028, 0x202F), (0x205F, 0x2064), (0x2066, 0x206F),
    (0x3000, 0x3000), (0x3164, 0x3164), (0xFEFF, 0xFEFF), (0xFFA0, 0xFFA0), (0xFFF9, 0xFFFB),
    (0x110BD, 0x110BD), (0x110CD, 0x110CD), (0x13430, 0x1343F), (0x1BCA0, 0x1BCA3),
    (0x1D173, 0x1D17A), (0xE0001, 0xE0001), (0xE0020, 0xE007F)]

/-- Whether a character has no shape of its own. -/
def isInvisible (c : Char) : Bool := shapeless.holds c || combining.holds c || unassigned.holds c

end DebugSymbols.Text
