import Mathlib.Tactic.IntervalCases
import DebugSymbols.Proofs.Json.Reading
import DebugSymbols.Proofs.Text.Digits

/-!
# What is written is read back

An indented value is read back as a node with the same content: strings with their escapes
resolved, integers with their digits, arrays and objects item by item. Floating-point numbers are
left out, because they are written as decimals that only lie next to them.

The reader is a scanner that passes tokens to a builder. Both take a text character by character,
so that the text of a value can be followed in front of whatever comes behind it. Only a number
needs to see the next character to be complete.
-/

namespace DebugSymbols.Json

/-! ## Scanner and builder together -/

/-- What a character does to a builder and the scanner that passes tokens to it. -/
def feed (state : Builder × Scan) (c : Char) : Builder × Scan :=
  ((state.2.take c).1.foldl Builder.take state.1, (state.2.take c).2)

/-- The document of a text is built while the text is scanned. -/
theorem Document.ofText_eq_foldl_feed (text : String) :
    ofText text =
      let last := text.toList.foldl feed (.start, .between)
      (last.2.finish.foldl Builder.take last.1).finish := by
  have hfold : ∀ (chars : List Char) (found : List Token) (scan : Scan),
      let scanned := chars.foldl (fun state c =>
        ((state.2.take c).1.reverse ++ state.1, (state.2.take c).2)) (found, scan)
      chars.foldl feed (found.reverse.foldl Builder.take .start, scan) =
        (scanned.1.reverse.foldl Builder.take .start, scanned.2) := by
    intro chars
    induction chars with
    | nil => exact fun _ _ => rfl
    | cons c chars ih =>
      intro found scan
      have hnext := ih ((scan.take c).1.reverse ++ found) (scan.take c).2
      rw [List.reverse_append, List.reverse_reverse, List.foldl_append] at hnext
      exact hnext
  have hscan := hfold text.toList [] .between
  rw [List.reverse_nil] at hscan
  dsimp only [List.foldl_nil] at hscan
  rw [hscan, ofText, tokens, List.foldl_append]

/-- Whether a builder is where a value may come. -/
def Builder.AwaitsValue (builder : Builder) : Prop :=
  builder.place = .value ∨ builder.place = .firstItem

/-- Whether a text goes on with a character that may stand behind a value. -/
def Delimited (rest : List Char) : Prop := ∃ c ∈ [',', ']', '\x7d', '\n'], rest.head? = some c

/-- A text that is read as a node wherever a value may come, in front of a delimiter. -/
def Reads (text : List Char) (node : Node) : Prop :=
  ∀ (builder : Builder) (rest : List Char), builder.AwaitsValue → Delimited rest →
    (text ++ rest).foldl feed (builder, .between) =
      rest.foldl feed (.deliver node builder.frames, .between)

namespace Builder

/-- A value begins wherever it may come. -/
theorem take_of_awaitsValue {builder : Builder} (h : builder.AwaitsValue) {token : Token}
    (hvalue : token ≠ .closeBracket) : builder.take token = builder.takeValue token := by
  obtain ⟨place, frames⟩ := builder
  rcases h with rfl | rfl
  · rfl
  · cases token <;> first | rfl | exact absurd rfl hvalue

end Builder

/-- A text that completes a token of a value is read in front of anything. -/
theorem Reads.of_token {text : List Char} {node : Node} {token : Token}
    (hscan : ∀ builder, text.foldl feed (builder, .between) = (builder.take token, .between))
    (hvalue : token ≠ .closeBracket)
    (hdeliver : ∀ builder : Builder, builder.takeValue token = .deliver node builder.frames) :
    Reads text node := by
  intro builder rest hawaits _
  rw [List.foldl_append, hscan, Builder.take_of_awaitsValue hawaits hvalue, hdeliver]

theorem reads_null : Reads "null".toList .null := .of_token (fun _ => rfl) nofun fun _ => rfl

theorem reads_boolean (value : Bool) :
    Reads (Value.booleanText value).toList (.boolean value) := by
  cases value with
  | false =>
    have hvalue : Token.boolean false ≠ .closeBracket := nofun
    exact .of_token (fun _ => rfl) hvalue fun _ => rfl
  | true =>
    have hvalue : Token.boolean true ≠ .closeBracket := nofun
    exact .of_token (fun _ => rfl) hvalue fun _ => rfl

/-! ## Strings -/

/-- A control character is read from its escape. -/
theorem foldl_feed_escape (builder : Builder) (chars : List Char) :
    ∀ n < 0x20, ('\\' :: 'u' :: Text.paddedHexDigits 4 n).foldl feed
        (builder, .string ⟨.ok chars, none⟩) =
      (builder, .string ⟨.ok (Char.ofNat n :: chars), none⟩) := by
  intro n hlt
  interval_cases n <;> rfl

/-- A character of a string is read as itself, whether or not it is escaped. -/
theorem foldl_feed_quotedChar (builder : Builder) (chars : List Char) (c : Char) :
    (Value.quotedChar c).foldl feed (builder, .string ⟨.ok chars, none⟩) =
      (builder, .string ⟨.ok (c :: chars), none⟩) := by
  unfold Value.quotedChar
  split
  case h_8 hquote hbackslash _ _ _ _ _ =>
    split
    · rename_i hcontrol
      rw [foldl_feed_escape builder chars c.toNat hcontrol, Char.ofNat_toNat]
    · rename_i hplain
      show feed (builder, .string ⟨.ok chars, none⟩) c = _
      rw [feed, Scan.take, if_neg hquote, if_neg hbackslash, if_neg hplain]
      rfl
  all_goals rfl

/-- The text of a string is read as the token of this string. -/
theorem foldl_feed_quoted (builder : Builder) (text : String) :
    (Value.quoted text).toList.foldl feed (builder, .between) =
      (builder.take (.string (.ok text)), .between) := by
  have hchars : ∀ (rest chars : List Char),
      (rest.flatMap Value.quotedChar).foldl feed (builder, .string ⟨.ok chars, none⟩) =
        (builder, .string ⟨.ok (rest.reverse ++ chars), none⟩) := by
    intro rest
    induction rest with
    | nil => exact fun _ => rfl
    | cons c rest ih =>
      intro chars
      rw [List.flatMap_cons, List.foldl_append, foldl_feed_quotedChar, ih, List.reverse_cons,
        List.append_assoc]
      rfl
  have hopen : feed (builder, .between) '"' = (builder, .string ⟨.ok [], none⟩) := rfl
  have htext : String.ofList (text.toList.reverse ++ []).reverse = text := by
    rw [List.append_nil, List.reverse_reverse, String.ofList_toList]
  rw [Value.quoted, String.toList_ofList, List.foldl_cons, hopen, List.foldl_append, hchars]
  show (builder.take (.string (.ok (String.ofList _))), Scan.between) = _
  rw [htext]

theorem reads_quoted (text : String) : Reads (Value.quoted text).toList (.string (.ok text)) :=
  .of_token (foldl_feed_quoted · text) nofun fun _ => rfl

/-! ## Numbers -/

namespace Scan

/-- A digit that begins a number, with a sign in front or not. -/
theorem feed_first_digit (builder : Builder) {digit : Nat} (hpos : 0 < digit) (hlt : digit < 10) :
    feed (builder, .between) (Nat.digitChar digit) =
        (builder, .number .whole ⟨false, [digit], none, none⟩) ∧
      feed (builder, .number .sign ⟨true, [], none, none⟩) (Nat.digitChar digit) =
        (builder, .number .whole ⟨true, [digit], none, none⟩) := by
  interval_cases digit <;> exact ⟨rfl, rfl⟩

theorem feed_digit (builder : Builder) (negative : Bool) (digits : List Nat) {digit : Nat}
    (hlt : digit < 10) :
    feed (builder, .number .whole ⟨negative, digits, none, none⟩) (Nat.digitChar digit) =
      (builder, .number .whole ⟨negative, digit :: digits, none, none⟩) := by
  interval_cases digit <;> rfl

end Scan

/-- The scanner in front of the digits of a number. -/
def Scan.beforeDigits (negative : Bool) : Scan :=
  if negative then .number .sign ⟨true, [], none, none⟩ else .between

/-- The digits of a number are taken one by one. -/
theorem foldl_feed_toDigits (builder : Builder) (negative : Bool) {n : Nat} (hpos : 0 < n) :
    (Nat.toDigits 10 n).foldl feed (builder, .beforeDigits negative) =
      (builder, .number .whole ⟨negative, Nat.digits 10 n, none, none⟩) := by
  induction n using Nat.strongRecOn with
  | ind n ih =>
    by_cases hlt : n < 10
    · obtain ⟨hplain, hsigned⟩ := Scan.feed_first_digit builder hpos hlt
      rw [Nat.toDigits_of_lt_base hlt, Nat.digits_of_lt 10 n (by omega) hlt]
      cases negative with
      | false => exact hplain
      | true => exact hsigned
    · have hle : 10 ≤ n := Nat.not_lt.1 hlt
      rw [Nat.toDigits_of_base_le (by decide) hle, List.foldl_append,
        ih (n / 10) (by omega) (by omega), Nat.digits_def' (by decide) hpos]
      exact Scan.feed_digit builder negative _ (Nat.mod_lt n (by decide))

/-- A delimiter completes a number and is then read like behind any other value. -/
theorem foldl_feed_number {builder : Builder} {part : NumberPart} {literal : Literal}
    (hpart : part = .leadingZero ∨ part = .whole) {rest : List Char} (hrest : Delimited rest) :
    rest.foldl feed (builder, .number part literal) =
      rest.foldl feed (builder.take (.number (Scan.inOrder literal)), .between) := by
  obtain ⟨c, hmem, hhead⟩ := hrest
  obtain ⟨rest, rfl⟩ := List.head?_eq_some_iff.1 hhead
  have hdelimiter : feed (builder, .number part literal) c =
      feed (builder.take (.number (Scan.inOrder literal)), .between) c := by
    simp only [List.mem_cons, List.not_mem_nil, or_false] at hmem
    rcases hmem with rfl | rfl | rfl | rfl <;> rcases hpart with rfl | rfl <;> rfl
  rw [List.foldl_cons, hdelimiter, List.foldl_cons]

/-- An integer is written with its digits, behind a sign if it is negative. -/
theorem toList_toString_int (n : Int) :
    (toString n).toList = (if n < 0 then ['-'] else []) ++ Nat.toDigits 10 n.natAbs := by
  cases n with
  | ofNat n =>
    have hsign : ¬ Int.ofNat n < 0 := Int.not_lt.2 (Int.natCast_nonneg n)
    rw [if_neg hsign]
    exact String.toList_ofList
  | negSucc n =>
    rw [if_pos (Int.negSucc_lt_zero n)]
    show ("-" ++ Nat.repr (n + 1)).toList = _
    rw [String.toList_append]
    exact congrArg _ String.toList_ofList

/-- The text of an integer is read as the literal of its digits. -/
theorem reads_integer (n : Int) : Reads (toString n).toList (.number (.ofInt n)) := by
  intro builder rest hawaits hrest
  have hnumber : ∃ part literal, (part = .leadingZero ∨ part = .whole) ∧
      Scan.inOrder literal = Literal.ofInt n ∧
        (toString n).toList.foldl feed (builder, .between) = (builder, .number part literal) := by
    rw [toList_toString_int]
    by_cases hzero : n = 0
    · subst hzero
      exact ⟨.leadingZero, ⟨false, [0], none, none⟩, .inl rfl, rfl, rfl⟩
    · have hdigits := foldl_feed_toDigits builder (n < 0) (show 0 < n.natAbs by omega)
      refine ⟨.whole, ⟨n < 0, Nat.digits 10 n.natAbs, none, none⟩, .inr rfl, ?_, ?_⟩
      · rw [Literal.ofInt, if_neg hzero]
        rfl
      · rw [← hdigits, List.foldl_append]
        by_cases hsign : n < 0
        · rw [if_pos hsign, decide_eq_true hsign]
          rfl
        · rw [if_neg hsign, decide_eq_false hsign]
          rfl
  have htake : builder.take (.number (.ofInt n)) = .deliver (.number (.ofInt n)) builder.frames :=
    Builder.take_of_awaitsValue hawaits (by simp)
  obtain ⟨part, literal, hpart, hliteral, hscan⟩ := hnumber
  rw [List.foldl_append, hscan, foldl_feed_number hpart hrest, hliteral, htake]

/-! ## Arrays and objects -/

/-- Line breaks and the indentation behind them are passed over. -/
theorem foldl_feed_lineBreak (builder : Builder) (depth : Nat) :
    (Value.lineBreak depth).toList.foldl feed (builder, .between) = (builder, .between) := by
  have hblanks : ∀ n, (List.replicate n ' ').foldl feed (builder, .between) =
      (builder, .between) := by
    intro n
    induction n with
    | zero => rfl
    | succ n ih => exact ih
  rw [Value.lineBreak, String.toList_ofList, List.foldl_cons]
  exact hblanks _

section Parts

variable {α : Type} {reads : String → α → Prop} (ready : List α → Builder → Prop)
  (done : List α → Builder)

/-- Parts between commas are read one by one. The parts that were read are known last one first. A
builder may be ready for another part in more than one place, but is in one place behind a part. -/
theorem foldl_feed_parts (hcomma : ∀ seen, ready seen ((done seen).take .comma))
    (hpart : ∀ text item seen builder rest, reads text item → ready seen builder →
      Delimited rest → (text.toList ++ rest).foldl feed (builder, .between) =
        rest.foldl feed (done (item :: seen), .between))
    {parts : List String} {items : List α} (h : List.Forall₂ reads parts items)
    (hne : parts ≠ []) (depth : Nat) {seen : List α} {builder : Builder}
    (hready : ready seen builder) {rest : List Char} (hrest : Delimited rest) :
    ((("," ++ Value.lineBreak depth).intercalate parts).toList ++ rest).foldl feed
        (builder, .between) = rest.foldl feed (done (items.reverse ++ seen), .between) := by
  induction h generalizing seen builder with
  | nil => exact absurd rfl hne
  | @cons text item parts items hreads hparts ih =>
    cases parts with
    | nil =>
      cases hparts
      rw [String.intercalate_singleton]
      exact hpart text item seen builder rest hreads hready hrest
    | cons next parts =>
      have hcommaRest : ∀ more, Delimited (",".toList ++ more) := fun more => ⟨',', by simp, rfl⟩
      have hfirst : ",".toList.foldl feed (done (item :: seen), .between) =
          ((done (item :: seen)).take .comma, .between) := rfl
      rw [String.intercalate_cons_cons, String.toList_append, String.toList_append,
        String.toList_append, List.append_assoc, List.append_assoc, List.append_assoc,
        hpart text item seen builder _ hreads hready (hcommaRest _), List.foldl_append, hfirst,
        List.foldl_append, foldl_feed_lineBreak, ih (by simp) (hcomma (item :: seen)),
        List.reverse_cons, List.append_assoc]
      rfl

/-- Parts between brackets are read between what the brackets do. -/
theorem foldl_feed_bracketed (hcomma : ∀ seen, ready seen ((done seen).take .comma))
    (hpart : ∀ text item seen builder rest, reads text item → ready seen builder →
      Delimited rest → (text.toList ++ rest).foldl feed (builder, .between) =
        rest.foldl feed (done (item :: seen), .between))
    {first last : String} {builder opened : Builder} (closed : List α → Builder)
    (hopen : first.toList.foldl feed (builder, .between) = (opened, .between))
    (hready : ready [] opened)
    (hempty : last.toList.foldl feed (opened, .between) = (closed [], .between))
    (hclose : ∀ seen, last.toList.foldl feed (done seen, .between) = (closed seen, .between))
    {parts : List String} {items : List α} (h : List.Forall₂ reads parts items) (depth : Nat) :
    (Value.bracketed first last depth parts).toList.foldl feed (builder, .between) =
      (closed items.reverse, .between) := by
  rw [Value.bracketed]
  cases hparts : parts with
  | nil =>
    subst hparts
    cases h
    rw [List.isEmpty_nil, if_pos rfl, String.toList_append, List.foldl_append, hopen, hempty]
    rfl
  | cons part others =>
    have hrest : Delimited ((Value.lineBreak depth).toList ++ last.toList) := by
      rw [Value.lineBreak, String.toList_ofList]
      exact ⟨'\n', by simp, rfl⟩
    subst hparts
    rw [List.isEmpty_cons, if_neg Bool.false_ne_true]
    simp only [String.toList_append, List.append_assoc]
    rw [List.foldl_append, hopen, List.foldl_append, foldl_feed_lineBreak,
      foldl_feed_parts ready done hcomma hpart h (by simp) (depth + 1) hready hrest,
      List.foldl_append, foldl_feed_lineBreak, hclose, List.append_nil]

end Parts

/-- An array is read item by item. -/
theorem reads_array {parts : List String} {nodes : List Node}
    (h : List.Forall₂ (fun text node => Reads text.toList node) parts nodes) (depth : Nat) :
    Reads (Value.bracketed "[" "]" depth parts).toList (.array nodes none) := by
  intro builder rest hawaits _
  have htake : builder.take .openBracket = ⟨.firstItem, .array [] :: builder.frames⟩ :=
    Builder.take_of_awaitsValue hawaits nofun
  have hopen : "[".toList.foldl feed (builder, .between) =
      (⟨.firstItem, .array [] :: builder.frames⟩, .between) := congrArg (·, Scan.between) htake
  have hread : (Value.bracketed "[" "]" depth parts).toList.foldl feed (builder, .between) =
      (.deliver (.array nodes.reverse.reverse none) builder.frames, .between) := by
    refine foldl_feed_bracketed
      (fun seen opened => opened.AwaitsValue ∧ opened.frames = .array seen :: builder.frames)
      (fun seen => ⟨.afterItem, .array seen :: builder.frames⟩) (fun _ => ⟨.inl rfl, rfl⟩) ?_
      (fun seen => .deliver (.array seen.reverse none) builder.frames)
      hopen ⟨.inr rfl, rfl⟩ rfl (fun _ => rfl) h depth
    rintro text node seen opened rest hreads ⟨hopened, hframes⟩ hrest
    rw [hreads opened rest hopened hrest, hframes]
    rfl
  rw [List.foldl_append, hread, List.reverse_reverse]

/-- A text that is read as a member where a key may come: the key, and a value behind a colon. -/
def ReadsMember (text : String) (member : Member) : Prop :=
  ∃ key value, text = Value.quoted key ++ ": " ++ value ∧ member.1 = .ok key ∧
    Reads value.toList member.2

/-- An object is read member by member. -/
theorem reads_object {parts : List String} {members : List Member}
    (h : List.Forall₂ ReadsMember parts members) (depth : Nat) :
    Reads (Value.bracketed "\x7b" "\x7d" depth parts).toList (.object members none) := by
  intro builder rest hawaits _
  have htake : builder.take .openBrace = ⟨.firstKey, .object [] :: builder.frames⟩ :=
    Builder.take_of_awaitsValue hawaits nofun
  have hopen : "\x7b".toList.foldl feed (builder, .between) =
      (⟨.firstKey, .object [] :: builder.frames⟩, .between) := congrArg (·, Scan.between) htake
  have hread : (Value.bracketed "\x7b" "\x7d" depth parts).toList.foldl feed
      (builder, .between) =
        (.deliver (.object members.reverse.reverse none) builder.frames, .between) := by
    refine foldl_feed_bracketed
      (fun seen opened => (opened.place = .key ∨ opened.place = .firstKey) ∧
        opened.frames = .object seen :: builder.frames)
      (fun seen => ⟨.afterMember, .object seen :: builder.frames⟩) (fun _ => ⟨.inl rfl, rfl⟩) ?_
      (fun seen => .deliver (.object seen.reverse none) builder.frames)
      hopen ⟨.inr rfl, rfl⟩ rfl (fun _ => rfl) h depth
    rintro text ⟨key, node⟩ seen ⟨place, frames⟩ rest hreads ⟨hplace, hframes⟩ hrest
    obtain ⟨key, value, rfl, rfl, hvalue⟩ := hreads
    obtain rfl : frames = _ := hframes
    have hkey : Builder.take ⟨place, .object seen :: builder.frames⟩ (.string (.ok key)) =
        ⟨.colon, .member seen (.ok key) :: builder.frames⟩ := by
      rcases hplace with rfl | rfl <;> rfl
    have hcolon : ": ".toList.foldl feed
        (⟨.colon, .member seen (.ok key) :: builder.frames⟩, .between) =
          (⟨.value, .member seen (.ok key) :: builder.frames⟩, .between) := rfl
    rw [String.toList_append, String.toList_append, List.append_assoc, List.append_assoc,
      List.foldl_append, foldl_feed_quoted, hkey, List.foldl_append, hcolon,
      hvalue _ rest (.inl rfl) hrest]
    rfl
  rw [List.foldl_append, hread, List.reverse_reverse]

/-! ## Values -/

namespace Value

mutual

/-- The node that a value is read back as; none if there is a floating-point number in it. -/
def node? : Value → Option Node
  | null => some .null
  | boolean value => some (.boolean value)
  | number (.integer value) => some (.number (.ofInt value))
  | number (.float _) => none
  | string text => some (.string (.ok text))
  | array items => (nodesOfItems? items).map (.array · none)
  | object members => (nodesOfMembers? members).map (.object · none)

/-- The nodes of the items of an array. -/
def nodesOfItems? : List Value → Option (List Node)
  | [] => some []
  | value :: rest => do return (← value.node?) :: (← nodesOfItems? rest)

/-- The members of the node of an object. -/
def nodesOfMembers? : List (String × Value) → Option (List Member)
  | [] => some []
  | (key, value) :: rest => do return (.ok key, ← value.node?) :: (← nodesOfMembers? rest)

end

mutual

/-- An indented value is read as its node. -/
theorem reads_indented (depth : Nat) :
    ∀ {value : Value} {node : Node}, value.node? = some node →
      Reads (value.indented depth).toList node
  | null, _, h => by
    cases h
    exact reads_null
  | boolean value, _, h => by
    cases h
    exact reads_boolean value
  | number (.integer value), _, h => by
    cases h
    exact reads_integer value
  | string text, _, h => by
    cases h
    exact reads_quoted text
  | array items, _, h => by
    obtain ⟨nodes, hnodes, rfl⟩ := Option.map_eq_some_iff.1 h
    exact reads_array (reads_indentedItems (depth + 1) hnodes) depth
  | object members, _, h => by
    obtain ⟨nodes, hnodes, rfl⟩ := Option.map_eq_some_iff.1 h
    exact reads_object (reads_indentedMembers (depth + 1) hnodes) depth

theorem reads_indentedItems (depth : Nat) :
    ∀ {items : List Value} {nodes : List Node}, nodesOfItems? items = some nodes →
      List.Forall₂ (fun text node => Reads text.toList node) (indentedItems depth items) nodes
  | [], _, h => by
    cases h
    exact .nil
  | value :: rest, _, h => by
    obtain ⟨node, hnode, h⟩ := Option.bind_eq_some_iff.1 h
    obtain ⟨nodes, hnodes, h⟩ := Option.bind_eq_some_iff.1 h
    cases h
    exact .cons (reads_indented depth hnode) (reads_indentedItems depth hnodes)

theorem reads_indentedMembers (depth : Nat) :
    ∀ {members : List (String × Value)} {nodes : List Member},
      nodesOfMembers? members = some nodes →
        List.Forall₂ ReadsMember (indentedMembers depth members) nodes
  | [], _, h => by
    cases h
    exact .nil
  | (key, value) :: rest, _, h => by
    obtain ⟨node, hnode, h⟩ := Option.bind_eq_some_iff.1 h
    obtain ⟨nodes, hnodes, h⟩ := Option.bind_eq_some_iff.1 h
    cases h
    exact .cons ⟨key, _, rfl, rfl, reads_indented depth hnode⟩
      (reads_indentedMembers depth hnodes)

end

/-- A line that holds an indented value is read back as a whole. -/
theorem ofText_indented {value : Value} {node : Node} (h : value.node? = some node) :
    Document.ofText (value.indented 0 ++ "\n") = ⟨node, false⟩ := by
  rw [Document.ofText_eq_foldl_feed, String.toList_append,
    reads_indented 0 h .start _ (.inl rfl) ⟨'\n', by simp, rfl⟩]
  rfl

end Value

end DebugSymbols.Json
