import DebugSymbols.Text.Quoted

/-!
# Text in XML attributes

Free text is written into a double-quoted attribute value so that a reader gets it back: markup
characters become the predefined entities, and the three control characters that XML allows become
character references, because a reader would otherwise turn them into spaces. XML has no way to
write the other control characters, so these are shown by their number.
-/

namespace DebugSymbols.Text

/-- One character of an attribute value. -/
def attributeChar (c : Char) : List Char :=
  match c with
  | '&' => "&amp;".toList
  | '<' => "&lt;".toList
  | '>' => "&gt;".toList
  | '"' => "&quot;".toList
  | '\'' => "&apos;".toList
  | '\t' => "&#x9;".toList
  | '\n' => "&#xA;".toList
  | '\r' => "&#xD;".toList
  | _ => if c.toNat < 0x20 then numberedChar c else [c]

/-- Free text as an attribute value, without the quotes around it. -/
def attributeValue (text : String) : String := String.ofList (text.toList.flatMap attributeChar)

end DebugSymbols.Text
