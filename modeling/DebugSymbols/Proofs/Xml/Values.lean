import DebugSymbols.Proofs.Text.Digits
import DebugSymbols.Proofs.Xml.Tags
import DebugSymbols.Sink.Protocol
import DebugSymbols.Text.Attribute

/-!
# Values of attributes

What a store writes between quotes is a value. Free text is one once its characters are escaped;
numbers, tokens, identifiers and bytes are made of characters that markup does not use.
-/

namespace DebugSymbols.Xml

/-! ## Parts of values -/

namespace AttributeValue

theorem of_plain {value : List Char} (h : ∀ c ∈ value, IsPlain c) : AttributeValue value := by
  induction value with
  | nil => exact .nil
  | cons c value ih =>
    obtain ⟨hc, hvalue⟩ := List.forall_mem_cons.1 h
    exact .plain hc (ih hvalue)

theorem append {front back : List Char} (hfront : AttributeValue front)
    (hback : AttributeValue back) : AttributeValue (front ++ back) := by
  induction hfront with
  | nil => exact hback
  | plain hplain _ ih => exact .plain hplain ih
  | reference hreference _ ih =>
    rw [List.cons_append, List.append_assoc, List.cons_append]
    exact .reference hreference ih

theorem flatMap {α : Type} {items : List α} {value : α → List Char}
    (h : ∀ item ∈ items, AttributeValue (value item)) : AttributeValue (items.flatMap value) := by
  induction items with
  | nil => exact .nil
  | cons item items ih =>
    obtain ⟨hitem, hitems⟩ := List.forall_mem_cons.1 h
    exact hitem.append (ih hitems)

end AttributeValue

/-! ## Digits -/

/-- Markup uses no digit, in either case. -/
theorem isPlain_digitChar : ∀ digit < 16, IsPlain (Nat.digitChar digit) ∧
    IsPlain (Nat.digitChar digit).toUpper := by
  decide

theorem isPlain_of_mem_toDigits {base n : Nat} {c : Char} (hbase : 1 < base) (hle : base ≤ 16)
    (hmem : c ∈ Nat.toDigits base n) : IsPlain c ∧ IsPlain c.toUpper := by
  obtain ⟨digit, hdigit, rfl⟩ := Text.exists_digit_of_mem_toDigits hbase hmem
  exact isPlain_digitChar digit (by omega)

theorem isPlain_of_mem_paddedHexDigits {width n : Nat} {c : Char}
    (hmem : c ∈ Text.paddedHexDigits width n) : IsPlain c ∧ IsPlain c.toUpper := by
  rw [Text.paddedHexDigits, List.mem_append] at hmem
  rcases hmem with hzero | hdigit
  · rw [List.eq_of_mem_replicate hzero]
    decide
  · exact isPlain_of_mem_toDigits (by decide) (by decide) hdigit

/-- Markup uses no character of a number in braces. -/
theorem isPlain_of_mem_numberedChar {c d : Char} (hmem : d ∈ Text.numberedChar c) : IsPlain d := by
  simp only [Text.numberedChar, Text.hex, String.toList_ofList, List.mem_append] at hmem
  obtain (hopening | hdigit) | hclosing := hmem
  · simp only [List.mem_cons, List.not_mem_nil, or_false] at hopening
    rcases hopening with rfl | rfl | rfl <;> decide
  · exact (isPlain_of_mem_toDigits (by decide) (by decide) hdigit).1
  · rw [List.mem_singleton.1 hclosing]
    decide

/-- What stands in hyphenated digits is a digit or a hyphen. -/
theorem mem_hyphenate {groups : List Nat} {digits : List Char} {c : Char}
    (hmem : c ∈ Guid.hyphenate groups digits) : c = '-' ∨ c ∈ digits := by
  fun_induction Guid.hyphenate groups digits with
  | case1 => cases hmem
  | case2 => exact .inr (List.mem_of_mem_take hmem)
  | case3 digits n rest _ ih =>
    rcases List.mem_append.1 hmem with hfront | hback
    · exact .inr (List.mem_of_mem_take hfront)
    · rcases List.mem_cons.1 hback with rfl | hrest
      · exact .inl rfl
      · exact (ih hrest).imp_right List.mem_of_mem_drop

/-! ## Free text -/

/-- A character of free text is a value once it is escaped. -/
theorem attributeValue_attributeChar (c : Char) : AttributeValue (Text.attributeChar c) := by
  have hentity : ∀ name ∈ ["amp", "lt", "gt", "quot", "apos"],
      AttributeValue ('&' :: (name.toList ++ [';'])) := by
    intro name hname
    exact .reference (.entity (List.mem_map_of_mem hname)) .nil
  have hnumber : ∀ digit, IsHexDigit digit →
      AttributeValue ('&' :: (['#', 'x', digit] ++ [';'])) := by
    intro digit hdigit
    have hdigits : ∀ c ∈ [digit], IsHexDigit c := List.forall_mem_singleton.2 hdigit
    exact .reference (.hexadecimal (List.cons_ne_nil _ _) hdigits) .nil
  unfold Text.attributeChar
  split
  · exact hentity "amp" (by simp)
  · exact hentity "lt" (by simp)
  · exact hentity "gt" (by simp)
  · exact hentity "quot" (by simp)
  · exact hentity "apos" (by simp)
  · exact hnumber '9' (by decide)
  · exact hnumber 'A' (by decide)
  · exact hnumber 'D' (by decide)
  · rename_i hamp hlt _ hquot _ _ _ _
    refine .of_plain fun d hd => ?_
    split at hd
    · exact isPlain_of_mem_numberedChar hd
    · rw [List.mem_singleton] at hd
      exact hd ▸ ⟨hlt, hamp, hquot⟩

/-- Free text is a value once it is escaped. -/
theorem attributeValue_of_free (text : String) :
    AttributeValue (Text.attributeValue text).toList := by
  rw [Text.attributeValue, String.toList_ofList]
  exact .flatMap fun c _ => attributeValue_attributeChar c

/-! ## Other values -/

/-- A text that markup does not use. -/
def HasNoMarkup (text : String) : Prop := ∀ c ∈ text.toList, IsPlain c

instance (text : String) : Decidable (HasNoMarkup text) :=
  decidable_of_iff (text.toList.all fun c => IsPlain c) (by simp [HasNoMarkup])

namespace HasNoMarkup

theorem append {front back : String} (hfront : HasNoMarkup front) (hback : HasNoMarkup back) :
    HasNoMarkup (front ++ back) := by
  rw [HasNoMarkup, String.toList_append, List.forall_mem_append]
  exact ⟨hfront, hback⟩

theorem ofList {text : List Char} (h : ∀ c ∈ text, IsPlain c) :
    HasNoMarkup (String.ofList text) := by
  rw [HasNoMarkup, String.toList_ofList]
  exact h

theorem decimal (n : Nat) : HasNoMarkup (toString n) := by
  rw [Nat.toString_eq_ofList_toDigits]
  exact .ofList fun _ hmem => (isPlain_of_mem_toDigits (by decide) (by decide) hmem).1

theorem hexOffset (n : UInt32) : HasNoMarkup (Text.hexOffset n) :=
  append (by decide) <|
    .ofList fun _ hmem => (isPlain_of_mem_toDigits (by decide) (by decide) hmem).1

theorem token (token : Token) : HasNoMarkup token.text :=
  append (by decide) <| .ofList fun _ hmem => (isPlain_of_mem_paddedHexDigits hmem).1

theorem upperHexBytes (bytes : List UInt8) : HasNoMarkup (Text.upperHexBytes bytes) := by
  refine .ofList fun c hmem => ?_
  obtain ⟨byte, -, hbyte⟩ := List.mem_flatMap.1 hmem
  obtain ⟨digit, hdigit, rfl⟩ := List.mem_map.1 hbyte
  exact (isPlain_of_mem_paddedHexDigits hdigit).2

theorem guid (guid : Guid) : HasNoMarkup guid.text := by
  refine .ofList fun c hmem => ?_
  rcases mem_hyphenate hmem with rfl | hdigit
  · decide
  · exact (isPlain_of_mem_paddedHexDigits hdigit).1

theorem kind (value : ConstantValue) : HasNoMarkup value.kind := by
  cases value <;> (rw [ConstantValue.kind]; decide)

theorem addressKind (kind : AddressKind) : HasNoMarkup kind.name := by
  cases kind
  decide

end HasNoMarkup

end DebugSymbols.Xml
