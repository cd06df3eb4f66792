import DebugSymbols.Text.Hex
import DebugSymbols.Text.Invisible

/-!
# Quoted text in messages

A message that shows text puts it in double quotes. Quotes, backslashes and the common control
characters get a backslash; every other character that has no shape of its own is shown by its
number.
-/

namespace DebugSymbols.Text

/-- A character by its number: a backslash, `u` and the hexadecimal number in braces. -/
def numberedChar (c : Char) : List Char := ['\\', 'u', '\x7b'] ++ (hex c.toNat).toList ++ ['\x7d']

/-- One character inside quotes. -/
def quotedChar (c : Char) : List Char :=
  match c with
  | '"' => ['\\', '"']
  | '\\' => ['\\', '\\']
  | '\n' => ['\\', 'n']
  | '\r' => ['\\', 'r']
  | '\t' => ['\\', 't']
  | '\x00' => ['\\', '0']
  | _ => if isInvisible c then numberedChar c else [c]

/-- Text in double quotes. -/
def quoted (text : String) : String :=
  String.ofList ('"' :: (text.toList.flatMap quotedChar ++ ['"']))

end DebugSymbols.Text
