import DebugSymbols.Proofs.Text.Digits
import DebugSymbols.Token

/-!
# Token text

A token is read from the texts that spell it: a numeral in decimal, or one in hexadecimal behind
`0x` or `0X`. It is read as well if there is a plus in front of the digits, and from no other text.

A machine reads a number digit by digit into a word, which is too small for some numbers. It need
not look at the digits that follow to know that the whole number is too large, because they never
make it smaller.
-/

namespace DebugSymbols.Token

open Text (IsNumeral)

variable {base value n : Nat} {chars digits : List Char} {text : String} {token : Token}

/-! ## Numbers -/

/-- The characters behind a plus, if there is one. -/
def withoutPlus : List Char → List Char
  | '+' :: rest => rest
  | chars => chars

theorem withoutPlus_of_ne (h : ∀ rest, chars ≠ '+' :: rest) : withoutPlus chars = chars := by
  unfold withoutPlus
  split
  · exact absurd rfl (h _)
  · rfl

theorem eq_withoutPlus_or (chars : List Char) :
    chars = withoutPlus chars ∨ chars = '+' :: withoutPlus chars := by
  unfold withoutPlus
  split
  · exact Or.inr rfl
  · exact Or.inl rfl

/-- A numeral has no plus. -/
theorem plus_notMem_of_isNumeral (hbase : 1 < base) (hle : base ≤ 16)
    (h : IsNumeral base n digits) : '+' ∉ digits := by
  intro hmem
  obtain ⟨digit, -, hvalue⟩ := h.exists_digitValue? hbase hle hmem
  cases hvalue

/-- A numeral has no plus to be taken away. -/
theorem withoutPlus_of_isNumeral (hbase : 1 < base) (hle : base ≤ 16)
    (h : IsNumeral base n digits) : withoutPlus digits = digits := by
  apply withoutPlus_of_ne
  rintro rest rfl
  exact plus_notMem_of_isNumeral hbase hle h List.mem_cons_self

/-- A number as a word, if it is one. -/
def word? (n : Nat) : Option UInt32 := if n < UInt32.size then some (UInt32.ofNat n) else none

theorem word?_eq_some_iff {word : UInt32} : word? n = some word ↔ n = word.toNat := by
  unfold word?
  constructor
  · intro h
    split at h
    · rename_i hlt
      rw [← Option.some.inj h, UInt32.toNat_ofNat_of_lt' hlt]
    · cases h
  · rintro rfl
    rw [if_pos word.toNat_lt, UInt32.ofNat_toNat]

theorem parseNumber?_eq (base : Nat) (chars : List Char) :
    parseNumber? base chars =
      if (withoutPlus chars).isEmpty then none
      else (Text.ofDigits? base (withoutPlus chars)).bind word? := by
  unfold parseNumber?
  split
  · rename_i digits
    have hdigits : withoutPlus ('+' :: digits) = digits := rfl
    rw [hdigits]
    dsimp only
    cases Text.ofDigits? base digits <;> rfl
  · rename_i hplus
    rw [withoutPlus_of_ne hplus]
    dsimp only
    cases Text.ofDigits? base chars <;> rfl

/-- The numerals of words are read as these words, each with or without a plus. -/
theorem parseNumber?_eq_some_iff (hbase : 1 < base) (hle : base ≤ 16) {word : UInt32} :
    parseNumber? base chars = some word ↔ IsNumeral base word.toNat (withoutPlus chars) := by
  rw [parseNumber?_eq, Text.isNumeral_iff hbase hle, ne_eq, ← List.isEmpty_iff]
  by_cases hempty : (withoutPlus chars).isEmpty = true
  · rw [if_pos hempty]
    exact iff_of_false (fun h => nomatch h) fun h => h.1 hempty
  · rw [if_neg hempty, and_iff_right hempty, Option.bind_eq_some_iff]
    simp only [word?_eq_some_iff, exists_eq_right]

/-! ## Machine words -/

/-- What one digit does to the word of the digits before it. There is no word if the product or the
sum is too large for one. -/
def pushWord (base : Nat) (word : UInt32) (c : Char) : Option UInt32 := do
  let digit ← Text.digitValue? c
  if digit < base then
    let product ← word? (word.toNat * base)
    word? (product.toNat + digit)
  else none

/-- A number, read digit by digit into a word. -/
def readWord? (base : Nat) (chars : List Char) : Option UInt32 :=
  if (withoutPlus chars).isEmpty then none else (withoutPlus chars).foldlM (pushWord base) 0

/-- A word takes a digit exactly if the number that it comes to is a word. -/
theorem pushWord_eq (base : Nat) (word : UInt32) (c : Char) :
    pushWord base word c = (Text.pushDigit base word.toNat c).bind word? := by
  unfold pushWord Text.pushDigit
  cases Text.digitValue? c with
  | none => rfl
  | some digit =>
    dsimp only [Option.bind_eq_bind, Option.bind_some]
    by_cases hdigit : digit < base
    · rw [if_pos hdigit, if_pos hdigit, Option.bind_some]
      by_cases hproduct : word.toNat * base < UInt32.size
      · rw [word?, if_pos hproduct, Option.bind_some, UInt32.toNat_ofNat_of_lt' hproduct]
      · -- the sum is no smaller than the product
        have hsum : ¬ word.toNat * base + digit < UInt32.size := by omega
        rw [word?, if_neg hproduct, word?, if_neg hsum]
        rfl
    · rw [if_neg hdigit, if_neg hdigit]
      rfl

/-- Digits that follow never make a number smaller. -/
theorem le_of_foldlM_pushDigit (h : digits.foldlM (Text.pushDigit base) value = some n) :
    value ≤ n := by
  induction digits generalizing value with
  | nil => exact Nat.le_of_eq (Option.some.inj h)
  | cons c digits ih =>
    rw [List.foldlM_cons] at h
    obtain ⟨next, hpush, hrest⟩ := Option.bind_eq_some_iff.1 h
    obtain ⟨digit, hlt, -, rfl⟩ := Text.pushDigit_eq_some_iff.1 hpush
    calc value ≤ value * base := Nat.le_mul_of_pos_right value (Nat.zero_lt_of_lt hlt)
      _ ≤ value * base + digit := Nat.le_add_right _ _
      _ ≤ n := ih hrest

/-- A run of digits is read into a word exactly if the number of the whole run is one: if the word
is too small at some digit, then it would be at the end. -/
theorem foldlM_pushWord (base : Nat) (word : UInt32) (digits : List Char) :
    digits.foldlM (pushWord base) word =
      (digits.foldlM (Text.pushDigit base) word.toNat).bind word? := by
  induction digits generalizing word with
  | nil =>
    show some word = word? word.toNat
    rw [word?, if_pos word.toNat_lt, UInt32.ofNat_toNat]
  | cons c digits ih =>
    rw [List.foldlM_cons, List.foldlM_cons, pushWord_eq]
    cases Text.pushDigit base word.toNat c with
    | none => rfl
    | some next =>
      dsimp only [Option.bind_eq_bind, Option.bind_some]
      by_cases hnext : next < UInt32.size
      · rw [word?, if_pos hnext, Option.bind_some, ih, UInt32.toNat_ofNat_of_lt' hnext]
      · rw [word?, if_neg hnext, Option.bind_none]
        cases hrest : digits.foldlM (Text.pushDigit base) next with
        | none => rfl
        | some n =>
          have hle := le_of_foldlM_pushDigit hrest
          exact (if_neg (by omega)).symm

/-- A number is read digit by digit into a word as it is read at once. -/
theorem readWord?_eq (base : Nat) (chars : List Char) :
    readWord? base chars = parseNumber? base chars := by
  rw [readWord?, foldlM_pushWord, UInt32.toNat_zero, ← Text.ofDigits?_eq_foldlM, parseNumber?_eq]

/-! ## Spellings -/

/-- A text that spells a token: in decimal, or in hexadecimal behind `0x` or `0X`. -/
inductive IsSpelling (token : Token) : String → Prop
  | decimal {digits : List Char} (h : IsNumeral 10 token.value.toNat digits) :
      IsSpelling token (String.ofList digits)
  | hexadecimal {digits : List Char} (mark : Char) (hmark : mark = 'x' ∨ mark = 'X')
      (h : IsNumeral 16 token.value.toNat digits) :
      IsSpelling token (String.ofList ('0' :: mark :: digits))

/-- The decimal digits of a token spell it. -/
theorem isSpelling_toDigits (token : Token) :
    token.IsSpelling (String.ofList (Nat.toDigits 10 token.value.toNat)) :=
  .decimal (IsNumeral.of_toDigits (by decide) (by decide) 0 token.value.toNat)

/-- The text of a token spells it. -/
theorem isSpelling_text (token : Token) : token.IsSpelling token.text := by
  have htext : token.text =
      String.ofList ('0' :: 'x' :: Text.paddedHexDigits 8 token.value.toNat) := by
    simp [← String.toList_inj, text, Text.paddedHex]
  rw [htext]
  exact .hexadecimal 'x' (Or.inl rfl)
    (IsNumeral.of_toDigits (by decide) (by decide) _ token.value.toNat)

/-- A text that would spell a token without the plus in front of its digits. -/
inductive IsSignedSpelling (token : Token) : String → Prop
  | decimal {digits : List Char} (h : IsNumeral 10 token.value.toNat digits) :
      IsSignedSpelling token (String.ofList ('+' :: digits))
  | hexadecimal {digits : List Char} (mark : Char) (hmark : mark = 'x' ∨ mark = 'X')
      (h : IsNumeral 16 token.value.toNat digits) :
      IsSignedSpelling token (String.ofList ('0' :: mark :: '+' :: digits))

/-- A spelling has no plus. -/
theorem IsSpelling.plus_notMem (h : token.IsSpelling text) : '+' ∉ text.toList := by
  cases h with
  | decimal hdigits =>
    rw [String.toList_ofList]
    exact plus_notMem_of_isNumeral (by decide) (by decide) hdigits
  | hexadecimal mark hmark hdigits =>
    have hnone := plus_notMem_of_isNumeral (by decide) (by decide) hdigits
    rw [String.toList_ofList, List.mem_cons, List.mem_cons]
    rintro (hzero | rfl | hmem)
    · cases hzero
    · rcases hmark with hmark | hmark <;> cases hmark
    · exact hnone hmem

theorem IsSignedSpelling.plus_mem (h : token.IsSignedSpelling text) : '+' ∈ text.toList := by
  cases h with
  | decimal _ => simp
  | hexadecimal _ _ _ => simp

/-! ## Reading -/

/-- What is read as a token: a numeral in one of the two bases, with or without a plus. -/
theorem parse?_eq_some_iff_isNumeral :
    parse? text = some token ↔
      (∃ mark chars, (mark = 'x' ∨ mark = 'X') ∧ text.toList = '0' :: mark :: chars ∧
          IsNumeral 16 token.value.toNat (withoutPlus chars)) ∨
        IsNumeral 10 token.value.toNat (withoutPlus text.toList) := by
  have hnumber : ∀ base, 1 < base → base ≤ 16 → ∀ chars,
      ((parseNumber? base chars).map Token.mk = some token ↔
        IsNumeral base token.value.toNat (withoutPlus chars)) := by
    intro base hbase hle chars
    rw [← parseNumber?_eq_some_iff hbase hle, Option.map_eq_some_iff]
    constructor
    · rintro ⟨word, hword, rfl⟩
      exact hword
    · intro hword
      exact ⟨token.value, hword, rfl⟩
  have hhex := hnumber 16 (by decide) (by decide)
  have hdecimal := hnumber 10 (by decide) (by decide)
  -- behind the marks of hexadecimal digits there is no decimal numeral: a mark is no decimal digit
  have hmarked : ∀ mark chars, mark = 'x' ∨ mark = 'X' →
      ¬ IsNumeral 10 token.value.toNat (withoutPlus ('0' :: mark :: chars)) := by
    intro mark chars hmark h
    obtain ⟨digit, -, hvalue⟩ :=
      h.exists_digitValue? (by decide) (by decide) (List.mem_cons_of_mem _ List.mem_cons_self)
    rcases hmark with rfl | rfl <;> cases hvalue
  unfold parse?
  split
  · rename_i chars htext
    rw [hhex, htext]
    simp [hmarked]
  · rename_i chars htext
    rw [hhex, htext]
    simp [hmarked]
  · rename_i hx hX
    rw [hdecimal]
    constructor
    · exact Or.inr
    · rintro (⟨mark, chars, rfl | rfl, htext, -⟩ | h)
      · exact absurd htext (hx chars)
      · exact absurd htext (hX chars)
      · exact h

/-- A token is read from each of its spellings. -/
theorem parse?_of_isSpelling (h : token.IsSpelling text) : parse? text = some token := by
  rw [parse?_eq_some_iff_isNumeral]
  cases h with
  | decimal hdigits =>
    rw [String.toList_ofList, withoutPlus_of_isNumeral (by decide) (by decide) hdigits]
    exact Or.inr hdigits
  | @hexadecimal digits mark hmark hdigits =>
    have hsame := withoutPlus_of_isNumeral (by decide) (by decide) hdigits
    exact Or.inl ⟨mark, digits, hmark, String.toList_ofList, hsame.symm ▸ hdigits⟩

/-- A token is read from each of its spellings with a plus in front of the digits. -/
theorem parse?_of_isSignedSpelling (h : token.IsSignedSpelling text) :
    parse? text = some token := by
  rw [parse?_eq_some_iff_isNumeral]
  cases h with
  | decimal hdigits =>
    rw [String.toList_ofList]
    exact Or.inr hdigits
  | @hexadecimal digits mark hmark hdigits =>
    exact Or.inl ⟨mark, '+' :: digits, hmark, String.toList_ofList, hdigits⟩

/-- A text from which a token is read spells it, with or without a plus. -/
theorem isSpelling_or_of_parse? (h : parse? text = some token) :
    token.IsSpelling text ∨ token.IsSignedSpelling text := by
  rw [← String.ofList_toList (s := text)]
  obtain ⟨mark, chars, hmark, htext, hdigits⟩ | hdigits := parse?_eq_some_iff_isNumeral.1 h
  · rw [htext]
    obtain hchars | hchars := eq_withoutPlus_or chars
    · rw [hchars]
      exact Or.inl (.hexadecimal mark hmark hdigits)
    · rw [hchars]
      exact Or.inr (.hexadecimal mark hmark hdigits)
  · obtain htext | htext := eq_withoutPlus_or text.toList
    · rw [htext]
      exact Or.inl (.decimal hdigits)
    · rw [htext]
      exact Or.inr (.decimal hdigits)

/-- A token is read from the texts that spell it, and from these texts with a plus in front of the
digits; no other text is read as a token. So among the texts without a plus it is the spellings that
are read. The text of a token is one of them. A machine that reads the digits one by one into a word
reads the same numbers. -/
theorem parse?_eq_some_iff (text : String) (token : Token) :
    (parse? text = some token ↔ token.IsSpelling text ∨ token.IsSignedSpelling text) ∧
      (token.IsSpelling text ↔ parse? text = some token ∧ '+' ∉ text.toList) ∧
      parse? token.text = some token ∧
      ∀ base chars, readWord? base chars = parseNumber? base chars := by
  refine ⟨⟨isSpelling_or_of_parse?, ?_⟩, ⟨fun h => ⟨parse?_of_isSpelling h, h.plus_notMem⟩, ?_⟩,
    parse?_of_isSpelling token.isSpelling_text, readWord?_eq⟩
  · rintro (h | h)
    · exact parse?_of_isSpelling h
    · exact parse?_of_isSignedSpelling h
  · rintro ⟨h, hplus⟩
    rcases isSpelling_or_of_parse? h with hspelled | hsigned
    · exact hspelled
    · exact absurd hsigned.plus_mem hplus

/-- A token is read although the characters behind `0x` are not all digits. -/
theorem parse?_accepts_plus :
    ¬ (parse? "0x+1" = some ⟨1⟩ ↔ (⟨1⟩ : Token).IsSpelling "0x+1") := by
  intro h
  have hread : parse? "0x+1" = some ⟨1⟩ := rfl
  exact (h.1 hread).plus_notMem (by decide)

end DebugSymbols.Token
