import Mathlib.Data.Bool.AllAny
import DebugSymbols.Proofs.Xml.Values
import DebugSymbols.Text.Range

/-!
# Characters of escaped text

A document may hold the characters of `documentChars` and no others. Free text is written with
references and numbers in place of the characters that a value of an attribute cannot hold, and
every control character is among those. What an escaped text still holds of the characters that no
document may hold are the noncharacters U+FFFE and U+FFFF, which stand in it where they stand in
the text.
-/

namespace DebugSymbols.Xml

/-! ## Characters of a document -/

/-- The characters that a document may hold. -/
def documentChars : Text.CharClass :=
  [(0x9, 0x9), (0xA, 0xA), (0xD, 0xD), (0x20, 0xD7FF), (0xE000, 0xFFFD), (0x10000, 0x10FFFF)]

theorem documentChars_holds_iff {c : Char} :
    documentChars.holds c = true ↔
      c.toNat = 0x9 ∨ c.toNat = 0xA ∨ c.toNat = 0xD ∨
        (0x20 ≤ c.toNat ∧ c.toNat ≠ 0xFFFE ∧ c.toNat ≠ 0xFFFF) := by
  have hvalid : c.toNat < 0xD800 ∨ (0xDFFF < c.toNat ∧ c.toNat < 0x110000) := c.valid
  simp only [Text.CharClass.holds, documentChars, List.any_cons, List.any_nil, Bool.or_false,
    Bool.or_eq_true, Bool.and_eq_true, decide_eq_true_eq]
  omega

/-- A control character that no document may hold. -/
def IsControl (c : Char) : Prop := c.toNat < 0x20 ∧ c ≠ '\t' ∧ c ≠ '\n' ∧ c ≠ '\r'

instance (c : Char) : Decidable (IsControl c) := inferInstanceAs (Decidable (_ ∧ _ ∧ _ ∧ _))

/-- The text that stands for a control character: a backslash, `u` and the number in braces. -/
def controlText (c : Char) : List Char :=
  "\\u\x7b".toList ++ Nat.toDigits 16 c.toNat ++ "\x7d".toList

/-- A character, or the text that stands for it. -/
def shownChar (c : Char) : List Char := if IsControl c then controlText c else [c]

/-- A text in which every control character is replaced by the text that stands for it. -/
def withoutControls (text : List Char) : List Char := text.flatMap shownChar

/-! ## Escaping one character -/

/-- The characters that are written as references. -/
def markedChars : List Char := ['&', '<', '>', '"', '\'', '\t', '\n', '\r']

theorem attributeChar_of_notMem {c : Char} (h : c ∉ markedChars) :
    Text.attributeChar c = shownChar c := by
  unfold Text.attributeChar shownChar
  split
  iterate 8 exact absurd (by decide) h
  rename_i htab hbreak hreturn
  by_cases hlow : c.toNat < 0x20
  · rw [if_pos hlow, if_pos ⟨hlow, htab, hbreak, hreturn⟩, Text.numberedChar, Text.hex,
      String.toList_ofList]
    rfl
  · rw [if_neg hlow, if_neg fun hcontrol => hlow hcontrol.1]

/-- A character of ASCII that is written as it is. -/
def IsVisible (c : Char) : Prop := c ∉ markedChars ∧ 0x20 ≤ c.toNat ∧ c.toNat < 0x7F

instance (c : Char) : Decidable (IsVisible c) := inferInstanceAs (Decidable (_ ∧ _ ∧ _))

theorem isVisible_of_mem_controlText {c d : Char} (hmem : d ∈ controlText c) : IsVisible d := by
  have hopening : ∀ d ∈ "\\u\x7b".toList, IsVisible d := List.all_iff_forall_prop.1 (by decide)
  have hdigit : ∀ digit < 16, IsVisible (Nat.digitChar digit) := by decide
  have hclosing : ∀ d ∈ "\x7d".toList, IsVisible d := List.all_iff_forall_prop.1 (by decide)
  rw [controlText, List.mem_append, List.mem_append] at hmem
  obtain (hfront | hmiddle) | hback := hmem
  · exact hopening d hfront
  · obtain ⟨digit, hlt, rfl⟩ := Text.exists_digit_of_mem_toDigits (by decide) hmiddle
    exact hdigit digit hlt
  · exact hclosing d hback

theorem notMem_markedChars_of_mem_shownChar {c d : Char} (hc : c ∉ markedChars)
    (hmem : d ∈ shownChar c) : d ∉ markedChars := by
  rw [shownChar] at hmem
  split at hmem
  · exact (isVisible_of_mem_controlText hmem).1
  · exact List.mem_singleton.1 hmem ▸ hc

theorem IsControl.notMem_markedChars {c : Char} (h : IsControl c) : c ∉ markedChars := by
  intro hmem
  have hnone : ∀ c ∈ markedChars, ¬ IsControl c := List.all_iff_forall_prop.1 (by decide)
  exact hnone c hmem h

/-! ## What no document may hold -/

/-- The noncharacters within the characters that are written as they are. -/
def IsNoncharacter (c : Char) : Prop := c = '\ufffe' ∨ c = '\uffff'

instance (c : Char) : Decidable (IsNoncharacter c) := inferInstanceAs (Decidable (_ ∨ _))

theorem isNoncharacter_iff_toNat {c : Char} :
    IsNoncharacter c ↔ c.toNat = 0xFFFE ∨ c.toNat = 0xFFFF := by
  rw [IsNoncharacter, ← Char.toNat_inj, ← Char.toNat_inj]
  rfl

/-- What no document may hold is a control character or a noncharacter. -/
theorem documentChars_holds_eq_false_iff {c : Char} :
    documentChars.holds c = false ↔ IsControl c ∨ IsNoncharacter c := by
  rw [← Bool.not_eq_true, documentChars_holds_iff, isNoncharacter_iff_toNat, IsControl,
    ← Char.toNat_inj.ne, ← Char.toNat_inj.ne, ← Char.toNat_inj.ne]
  change _ ↔ (_ ∧ c.toNat ≠ 9 ∧ c.toNat ≠ 10 ∧ c.toNat ≠ 13) ∨ _
  omega

/-- Of one escaped character only a noncharacter is left that no document may hold. -/
theorem filter_attributeChar (c : Char) :
    (Text.attributeChar c).filter (fun d => !documentChars.holds d) =
      [c].filter (fun d => IsNoncharacter d) := by
  have hmarked : ∀ c ∈ markedChars,
      (Text.attributeChar c).filter (fun d => !documentChars.holds d) =
        [c].filter (fun d => IsNoncharacter d) := List.all_iff_forall_prop.1 (by decide)
  by_cases hmem : c ∈ markedChars
  · exact hmarked c hmem
  rw [attributeChar_of_notMem hmem, shownChar]
  split
  case isTrue hcontrol =>
    have htext : ∀ d ∈ controlText c, documentChars.holds d = true := fun d hd => by
      obtain ⟨-, hlow, hhigh⟩ := isVisible_of_mem_controlText hd
      exact documentChars_holds_iff.2 (by omega)
    have hnone : ¬ IsNoncharacter c := by
      rw [isNoncharacter_iff_toNat]
      have := hcontrol.1
      omega
    have hfilter : (controlText c).filter (fun d => !documentChars.holds d) = [] :=
      List.filter_eq_nil_iff.2 fun d hd => by simp [htext d hd]
    rw [hfilter, List.filter_singleton, decide_eq_false hnone]
    rfl
  case isFalse hcontrol =>
    refine List.filter_congr fun d hd => ?_
    rw [List.mem_singleton.1 hd, Bool.eq_iff_iff, Bool.not_eq_true', decide_eq_true_eq,
      documentChars_holds_eq_false_iff, or_iff_right hcontrol]

/-- An escaped text holds the characters that no document may hold exactly where the text has the
noncharacters U+FFFE and U+FFFF, so it is made of characters of a document exactly if the text has
neither. -/
theorem escaped_in_document_iff (text : String) :
    (Text.attributeValue text).toList.filter (fun c => !documentChars.holds c) =
        text.toList.filter (fun c => IsNoncharacter c) ∧
      ((∀ c ∈ (Text.attributeValue text).toList, documentChars.holds c = true) ↔
        '\ufffe' ∉ text.toList ∧ '\uffff' ∉ text.toList) := by
  have hfilter : (Text.attributeValue text).toList.filter (fun c => !documentChars.holds c) =
      text.toList.filter (fun c => IsNoncharacter c) := by
    rw [Text.attributeValue, String.toList_ofList, List.filter_flatMap,
      List.flatMap_congr fun c _ => filter_attributeChar c, ← List.filter_flatMap,
      List.flatMap_singleton']
  refine ⟨hfilter, ?_⟩
  calc (∀ c ∈ (Text.attributeValue text).toList, documentChars.holds c = true)
      ↔ (Text.attributeValue text).toList.filter (fun c => !documentChars.holds c) = [] := by
        simp only [List.filter_eq_nil_iff, Bool.not_eq_true', Bool.not_eq_false]
    _ ↔ text.toList.filter (fun c => IsNoncharacter c) = [] := by rw [hfilter]
    _ ↔ ∀ c ∈ text.toList, ¬ IsNoncharacter c := by
        simp only [List.filter_eq_nil_iff, decide_eq_true_eq]
    _ ↔ '\ufffe' ∉ text.toList ∧ '\uffff' ∉ text.toList := by
        simp only [IsNoncharacter, not_or, forall_and, List.forall_mem_ne']

/-- The text that is a noncharacter is still one once it is escaped. -/
theorem noncharacter_left_in_escaped :
    ¬ ∀ c ∈ (Text.attributeValue "\ufffe").toList, documentChars.holds c = true := by
  intro hlegal
  exact absurd (hlegal '\ufffe' (by decide)) (by decide)

end DebugSymbols.Xml
