import DebugSymbols.Json.Number
import DebugSymbols.Text.Hex

/-!
# JSON tokens

The tokens of a text are found by an automaton that takes one character at a time. Where the text
stops being JSON the tokens end with one that says what is wrong there.

Strings are the only tokens that can be sound to pass over and yet not be readable: they are so if
an escape stands for half of a surrogate pair without the other half.
-/

namespace DebugSymbols.Json

/-- A token. -/
inductive Token
  | openBracket
  | closeBracket
  | openBrace
  | closeBrace
  | comma
  | colon
  | null
  | boolean (value : Bool)
  | number (literal : Literal)
  /-- A string; its text if it can be read. -/
  | string (text : Except Fault String)
  /-- The text breaks off within a string. -/
  | brokenString (place : Break)
  /-- The text breaks off within another token, or holds a character that begins none. -/
  | broken (place : Break)

/-- How far a number literal has come. -/
inductive NumberPart
  | sign
  | leadingZero
  | whole
  | point
  | fraction
  | exponentMark
  | exponentSign
  | exponent
deriving DecidableEq, Repr

namespace NumberPart

/-- Whether a literal may end here. -/
def isComplete : NumberPart → Bool
  | leadingZero | whole | fraction | exponent => true
  | _ => false

end NumberPart

/-- The text of a string so far, last character first, or why it cannot be read. -/
structure StringSoFar where
  text : Except Fault (List Char)
  /-- The first half of a surrogate pair whose second half has to come next. -/
  high : Option Nat

namespace StringSoFar

/-- Nothing so far. -/
def start : StringSoFar := ⟨.ok [], none⟩

/-- A fault that makes the string unreadable; an earlier one stays. -/
def fail (soFar : StringSoFar) : StringSoFar :=
  match soFar.text with
  | .ok _ => ⟨.error .illFormed, none⟩
  | .error fault => ⟨.error fault, none⟩

/-- Appends a character. A first half of a pair cannot be followed by one. -/
def push (soFar : StringSoFar) (c : Char) : StringSoFar :=
  if soFar.high.isSome then soFar.fail
  else { soFar with text := soFar.text.map (c :: ·) }

/-- Appends the code unit of an escape. -/
def pushUnit (soFar : StringSoFar) (unit : Nat) : StringSoFar :=
  let isLow := 0xDC00 ≤ unit && unit ≤ 0xDFFF
  match soFar.high with
  | some high =>
    if isLow then
      let c := Char.ofNat (0x10000 + (high - 0xD800) * 0x400 + (unit - 0xDC00))
      { text := soFar.text.map (c :: ·), high := none }
    else soFar.fail
  | none =>
    if isLow then soFar.fail
    else if 0xD800 ≤ unit && unit ≤ 0xDBFF then { soFar with high := some unit }
    else soFar.push (Char.ofNat unit)

/-- The text of a finished string. -/
def finish (soFar : StringSoFar) : Except Fault String :=
  if soFar.high.isSome then
    match soFar.text with
    | .ok _ => .error .illFormed
    | .error fault => .error fault
  else soFar.text.map fun chars => String.ofList chars.reverse

/-- The token of a string in which the text breaks off with a fault. -/
def breakOff (soFar : StringSoFar) (fault : Fault) : Token :=
  match soFar.text with
  | .ok _ => .brokenString (.plain fault)
  | .error earlier => .brokenString ⟨earlier, fault⟩

end StringSoFar

/-- The state of the automaton. -/
inductive Scan
  | between
  /-- Within `null`, `true` or `false`, with what is still to come. -/
  | word (rest : List Char) (token : Token)
  | string (soFar : StringSoFar)
  /-- Behind a backslash. -/
  | escape (soFar : StringSoFar)
  /-- Behind `\u`, with the digits so far, last one first. -/
  | unicode (soFar : StringSoFar) (digits : List Char)
  /-- Within a number; digits so far, last one first. -/
  | number (part : NumberPart) (literal : Literal)
  /-- The text has broken off. -/
  | stopped

namespace Scan

/-- The token of a text that breaks off with the same fault however it is used. -/
def ill : Token := .broken (.plain .illFormed)

/-- Puts digits in the order of the text. -/
def inOrder (literal : Literal) : Literal where
  negative := literal.negative
  whole := literal.whole.reverse
  fraction := literal.fraction.map List.reverse
  exponent := literal.exponent.map fun (negative, digits) => (negative, digits.reverse)

/-- What a character between tokens begins: tokens found, and the next state. -/
def begin_ (c : Char) : List Token × Scan :=
  match c with
  | ' ' | '\t' | '\n' | '\r' => ([], between)
  | '[' => ([.openBracket], between)
  | ']' => ([.closeBracket], between)
  | '\x7b' => ([.openBrace], between)
  | '\x7d' => ([.closeBrace], between)
  | ',' => ([.comma], between)
  | ':' => ([.colon], between)
  | 'n' => ([], word "ull".toList .null)
  | 't' => ([], word "rue".toList (.boolean true))
  | 'f' => ([], word "alse".toList (.boolean false))
  | '"' => ([], string .start)
  | '-' => ([], number .sign ⟨true, [], none, none⟩)
  | '0' => ([], number .leadingZero ⟨false, [0], none, none⟩)
  | _ =>
    if c.isDigit then ([], number .whole ⟨false, [c.toNat - '0'.toNat], none, none⟩)
    else ([ill], stopped)

/-- The state of a number behind one more character; none if the character belongs to no number. -/
def extendNumber (part : NumberPart) (literal : Literal) (c : Char) :
    Option (NumberPart × Literal) :=
  let digit := c.toNat - '0'.toNat
  match part with
  | .sign =>
    if c = '0' then some (.leadingZero, { literal with whole := [0] })
    else if c.isDigit then some (.whole, { literal with whole := [digit] })
    else none
  | .leadingZero | .whole =>
    if c.isDigit then
      if part = .leadingZero then none
      else some (.whole, { literal with whole := digit :: literal.whole })
    else if c = '.' then some (.point, { literal with fraction := some [] })
    else if c = 'e' ∨ c = 'E' then
      some (.exponentMark, { literal with exponent := some (false, []) })
    else none
  | .point | .fraction =>
    if c.isDigit then
      some (.fraction, { literal with fraction := literal.fraction.map (digit :: ·) })
    else if part = .fraction ∧ (c = 'e' ∨ c = 'E') then
      some (.exponentMark, { literal with exponent := some (false, []) })
    else none
  | .exponentMark | .exponentSign | .exponent =>
    if c.isDigit then
      let exponent := literal.exponent.map fun (negative, digits) => (negative, digit :: digits)
      some (.exponent, { literal with exponent })
    else if part = .exponentMark ∧ (c = '+' ∨ c = '-') then
      some (.exponentSign, { literal with exponent := some (c == '-', []) })
    else none

/-- Takes a character behind the part of a number. A digit behind a leading zero is ill-formed; any
other character that does not belong to a complete number begins the next token. -/
def takeInNumber (part : NumberPart) (literal : Literal) (c : Char) : List Token × Scan :=
  match extendNumber part literal c with
  | some (part, literal) => ([], number part literal)
  | none =>
    if part.isComplete && !(part == .leadingZero && c.isDigit) then
      let (tokens, next) := begin_ c
      (.number (inOrder literal) :: tokens, next)
    else ([ill], stopped)

/-- The character that an escape of one letter stands for. -/
def escaped? : Char → Option Char
  | '"' => some '"'
  | '\\' => some '\\'
  | '/' => some '/'
  | 'b' => some '\x08'
  | 'f' => some '\x0c'
  | 'n' => some '\n'
  | 'r' => some '\r'
  | 't' => some '\t'
  | _ => none

/-- The number of bytes of characters in UTF-8. -/
def utf8Length (chars : List Char) : Nat := (String.ofList chars).utf8ByteSize

/-- Takes a character behind `\u`. Four bytes are read before they are looked at. -/
def takeInUnicode (soFar : StringSoFar) (digits : List Char) (c : Char) : List Token × Scan :=
  let digits := c :: digits
  if utf8Length digits < 4 then ([], unicode soFar digits)
  else
    match Text.ofDigits? 16 digits.reverse with
    | some unit =>
      if digits.length = 4 then ([], string (soFar.pushUnit unit))
      else ([soFar.breakOff .illFormed], stopped)
    | none => ([soFar.breakOff .illFormed], stopped)

/-- Takes one character: the tokens found, and the next state. -/
def take (scan : Scan) (c : Char) : List Token × Scan :=
  match scan with
  | between => begin_ c
  | word [] token =>
    let (tokens, next) := begin_ c
    (token :: tokens, next)
  | word [last] token =>
    if c = last then ([token], between) else ([ill], stopped)
  | word (expected :: rest) token =>
    if c = expected then ([], word rest token) else ([ill], stopped)
  | string soFar =>
    if c = '"' then ([.string soFar.finish], between)
    else if c = '\\' then ([], escape soFar)
    else if c.toNat < 0x20 then ([soFar.breakOff .illFormed], stopped)
    else ([], string (soFar.push c))
  | escape soFar =>
    if c = 'u' then ([], unicode soFar [])
    else
      match escaped? c with
      | some character => ([], string (soFar.push character))
      | none => ([soFar.breakOff .illFormed], stopped)
  | unicode soFar digits => takeInUnicode soFar digits c
  | number part literal => takeInNumber part literal c
  | stopped => ([], stopped)

/-- The tokens that the end of the text completes. A number that ends too early is passed over as
ill-formed and read as ending. -/
def finish : Scan → List Token
  | between => []
  | word _ _ => [.broken (.plain .endOfText)]
  | string soFar => [soFar.breakOff .endOfText]
  | escape soFar => [soFar.breakOff .endOfText]
  | unicode soFar _ => [soFar.breakOff .endOfText]
  | number part literal =>
    if part.isComplete then [.number (inOrder literal)]
    else [.broken ⟨.endOfText, .illFormed⟩]
  | stopped => []

end Scan

/-- The tokens of a text. -/
def tokens (text : String) : List Token :=
  let (found, last) := text.toList.foldl (fun (found, scan) c =>
    let (tokens, next) := scan.take c
    (tokens.reverse ++ found, next)) (([] : List Token), Scan.between)
  found.reverse ++ last.finish

end DebugSymbols.Json
