/-!
# UTF-16

Names in metadata blobs are sequences of 16-bit code units. A character below U+10000 is one unit;
any other is a high surrogate followed by a low one. Decoding accepts nothing but what encoding
produces: a surrogate that is not half of such a pair is refused.
-/

namespace DebugSymbols.Text.Utf16

/-- The code units of a character. -/
def encodeChar (c : Char) : List UInt16 :=
  if c.toNat < 0x10000 then [UInt16.ofNat c.toNat]
  else
    let offset := c.toNat - 0x10000
    [UInt16.ofNat (0xD800 + offset / 0x400), UInt16.ofNat (0xDC00 + offset % 0x400)]

/-- The code units of a text. -/
def encode (text : List Char) : List UInt16 := text.flatMap encodeChar

/-- Whether a unit is the first half of a pair. -/
def isHigh (unit : UInt16) : Bool := 0xD800 ≤ unit && unit ≤ 0xDBFF

/-- Whether a unit is the second half of a pair. -/
def isLow (unit : UInt16) : Bool := 0xDC00 ≤ unit && unit ≤ 0xDFFF

/-- The character of a pair of surrogates. -/
def pairChar (high low : UInt16) : Char :=
  Char.ofNat (0x10000 + (high.toNat - 0xD800) * 0x400 + (low.toNat - 0xDC00))

/-- The text of a sequence of code units; none if a surrogate stands alone. -/
def decode? : List UInt16 → Option (List Char)
  | [] => some []
  | [unit] => if isHigh unit || isLow unit then none else some [Char.ofNat unit.toNat]
  | unit :: next :: rest =>
    if isHigh unit then
      if isLow next then (decode? rest).map (pairChar unit next :: ·) else none
    else if isLow unit then none
    else (decode? (next :: rest)).map (Char.ofNat unit.toNat :: ·)

end DebugSymbols.Text.Utf16
