import Mathlib
import DebugSymbols.Text.Utf16

/-!
# UTF-16 is canonical

Decoding accepts exactly the code units of a text, so every text has one encoding and every
accepted sequence of units is the encoding of what it decodes to.
-/

namespace DebugSymbols.Text.Utf16

theorem isHigh_eq_true {unit : UInt16} :
    isHigh unit = true ↔ 0xD800 ≤ unit.toNat ∧ unit.toNat ≤ 0xDBFF := by
  simp [isHigh, UInt16.le_iff_toNat_le]

theorem isLow_eq_true {unit : UInt16} :
    isLow unit = true ↔ 0xDC00 ≤ unit.toNat ∧ unit.toNat ≤ 0xDFFF := by
  simp [isLow, UInt16.le_iff_toNat_le]

/-- The number of a character is none of the surrogates'. -/
theorem toNat_bounds (c : Char) :
    c.toNat < 0xD800 ∨ (0xDFFF < c.toNat ∧ c.toNat < 0x110000) := by
  have h := c.valid
  simpa [UInt32.isValidChar, Nat.isValidChar] using h

/-- A number that is no surrogate's is the number of its character. -/
theorem toNat_ofNat_of_valid {n : Nat} (h : n < 0xD800 ∨ (0xDFFF < n ∧ n < 0x110000)) :
    (Char.ofNat n).toNat = n := by
  have hvalid : n.isValidChar := h
  simp [Char.ofNat, hvalid, Char.ofNatAux, Char.toNat]

/-- A character below U+10000 is its own code unit. -/
theorem encodeChar_of_lt {c : Char} (h : c.toNat < 0x10000) :
    encodeChar c = [UInt16.ofNat c.toNat] := by
  rw [encodeChar, if_pos h]

/-- Any other character is a pair of code units. -/
theorem encodeChar_of_le {c : Char} (h : 0x10000 ≤ c.toNat) :
    encodeChar c = [UInt16.ofNat (0xD800 + (c.toNat - 0x10000) / 0x400),
      UInt16.ofNat (0xDC00 + (c.toNat - 0x10000) % 0x400)] := by
  rw [encodeChar, if_neg (Nat.not_lt.2 h)]

theorem toNat_ofNat_of_lt {n : Nat} (h : n < 0x10000) : (UInt16.ofNat n).toNat = n := by
  rw [UInt16.toNat_ofNat']
  omega

/-- A unit that is no surrogate is the encoding of a character. -/
theorem encodeChar_unit {unit : UInt16} (hhigh : isHigh unit = false) (hlow : isLow unit = false) :
    encodeChar (Char.ofNat unit.toNat) = [unit] := by
  have hlt := unit.toNat_lt
  rw [Bool.eq_false_iff, Ne, isHigh_eq_true] at hhigh
  rw [Bool.eq_false_iff, Ne, isLow_eq_true] at hlow
  have hnat : (Char.ofNat unit.toNat).toNat = unit.toNat := toNat_ofNat_of_valid (by omega)
  rw [encodeChar_of_lt (by omega), hnat, UInt16.ofNat_toNat]

/-- The number that a pair of surrogates stands for. -/
theorem toNat_pairChar {high low : UInt16} (hhigh : isHigh high = true) (hlow : isLow low = true) :
    (pairChar high low).toNat =
      0x10000 + (high.toNat - 0xD800) * 0x400 + (low.toNat - 0xDC00) := by
  rw [isHigh_eq_true] at hhigh
  rw [isLow_eq_true] at hlow
  exact toNat_ofNat_of_valid (by omega)

/-- A pair of surrogates is the encoding of a character. -/
theorem encodeChar_pair {high low : UInt16} (hhigh : isHigh high = true) (hlow : isLow low = true) :
    encodeChar (pairChar high low) = [high, low] := by
  have hnat := toNat_pairChar hhigh hlow
  rw [isHigh_eq_true] at hhigh
  rw [isLow_eq_true] at hlow
  rw [encodeChar_of_le (by omega), hnat]
  have hfirst : 0xD800 + (0x10000 + (high.toNat - 0xD800) * 0x400 + (low.toNat - 0xDC00)
      - 0x10000) / 0x400 = high.toNat := by omega
  have hsecond : 0xDC00 + (0x10000 + (high.toNat - 0xD800) * 0x400 + (low.toNat - 0xDC00)
      - 0x10000) % 0x400 = low.toNat := by omega
  rw [hfirst, hsecond, UInt16.ofNat_toNat, UInt16.ofNat_toNat]

theorem decode?_unit {unit : UInt16} (hhigh : isHigh unit = false) (hlow : isLow unit = false)
    (rest : List UInt16) :
    decode? (unit :: rest) = (decode? rest).map (Char.ofNat unit.toNat :: ·) := by
  cases rest <;> simp [decode?, hhigh, hlow]

theorem decode?_pair {high low : UInt16} (hhigh : isHigh high = true) (hlow : isLow low = true)
    (rest : List UInt16) :
    decode? (high :: low :: rest) = (decode? rest).map (pairChar high low :: ·) := by
  simp [decode?, hhigh, hlow]

/-- The code units of a character in front of others decode to this character. -/
theorem decode?_encodeChar_append (c : Char) (rest : List UInt16) :
    decode? (encodeChar c ++ rest) = (decode? rest).map (c :: ·) := by
  have hbounds := toNat_bounds c
  by_cases h : c.toNat < 0x10000
  · -- one unit, which is no surrogate because the character is none
    have hnat := toNat_ofNat_of_lt h
    have hhigh : isHigh (UInt16.ofNat c.toNat) = false := by
      rw [Bool.eq_false_iff, Ne, isHigh_eq_true]
      omega
    have hlow : isLow (UInt16.ofNat c.toNat) = false := by
      rw [Bool.eq_false_iff, Ne, isLow_eq_true]
      omega
    rw [encodeChar_of_lt h, List.singleton_append, decode?_unit hhigh hlow, hnat, Char.ofNat_toNat]
  · have hfirst := toNat_ofNat_of_lt (n := 0xD800 + (c.toNat - 0x10000) / 0x400) (by omega)
    have hsecond := toNat_ofNat_of_lt (n := 0xDC00 + (c.toNat - 0x10000) % 0x400) (by omega)
    have hhigh : isHigh (UInt16.ofNat (0xD800 + (c.toNat - 0x10000) / 0x400)) = true := by
      rw [isHigh_eq_true]
      omega
    have hlow : isLow (UInt16.ofNat (0xDC00 + (c.toNat - 0x10000) % 0x400)) = true := by
      rw [isLow_eq_true]
      omega
    have hchar : pairChar (UInt16.ofNat (0xD800 + (c.toNat - 0x10000) / 0x400))
        (UInt16.ofNat (0xDC00 + (c.toNat - 0x10000) % 0x400)) = c := by
      apply Char.toNat_inj.1
      rw [toNat_pairChar hhigh hlow, hfirst, hsecond]
      omega
    rw [encodeChar_of_le (Nat.not_lt.1 h), List.cons_append, List.cons_append, List.nil_append,
      decode?_pair hhigh hlow, hchar]

/-- Decoding gives back what was encoded. -/
theorem decode?_encode (text : List Char) : decode? (encode text) = some text := by
  induction text with
  | nil => rfl
  | cons c text ih =>
    rw [encode, List.flatMap_cons, decode?_encodeChar_append]
    rw [encode] at ih
    rw [ih, Option.map_some]

/-- Decoding accepts nothing but encodings. -/
theorem eq_encode_of_decode? {units : List UInt16} {text : List Char}
    (h : decode? units = some text) : units = encode text := by
  fun_induction decode? units generalizing text with
  | case1 =>
    cases h
    rfl
  | case2 => cases h
  | case3 unit hsurrogate =>
    cases h
    simp only [Bool.or_eq_true, not_or, Bool.not_eq_true] at hsurrogate
    simp [encode, encodeChar_unit hsurrogate.1 hsurrogate.2]
  | case4 high low rest hhigh hlow ih =>
    obtain ⟨text, htext, rfl⟩ := Option.map_eq_some_iff.1 h
    simp only [ih htext, encode, List.flatMap_cons, encodeChar_pair hhigh hlow]
    rfl
  | case5 => cases h
  | case6 => cases h
  | case7 unit next rest hhigh hlow ih =>
    obtain ⟨text, htext, rfl⟩ := Option.map_eq_some_iff.1 h
    rw [Bool.not_eq_true] at hhigh hlow
    simp only [ih htext, encode, List.flatMap_cons, encodeChar_unit hhigh hlow]
    rfl

/-- Decoding is the exact inverse of encoding. -/
theorem decode?_eq_some_iff {units : List UInt16} {text : List Char} :
    decode? units = some text ↔ units = encode text :=
  ⟨eq_encode_of_decode?, fun h => h ▸ decode?_encode text⟩

/-- Only the NUL character has the unit zero. -/
theorem zero_mem_encodeChar {c : Char} : 0 ∈ encodeChar c ↔ c = '\x00' := by
  have hbounds := toNat_bounds c
  by_cases h : c.toNat < 0x10000
  · rw [encodeChar_of_lt h, List.mem_singleton, ← UInt16.toNat_inj, toNat_ofNat_of_lt h,
      ← Char.toNat_inj]
    exact eq_comm
  · have hne : c ≠ '\x00' := by
      rintro rfl
      exact h (by decide)
    have hfirst := toNat_ofNat_of_lt (n := 0xD800 + (c.toNat - 0x10000) / 0x400) (by omega)
    have hsecond := toNat_ofNat_of_lt (n := 0xDC00 + (c.toNat - 0x10000) % 0x400) (by omega)
    simp only [encodeChar_of_le (Nat.not_lt.1 h), List.mem_cons, List.not_mem_nil, or_false, hne,
      iff_false, ← UInt16.toNat_inj, hfirst, hsecond]
    show ¬ (0 = _ ∨ 0 = _)
    omega

/-- A text holds a NUL character exactly if its encoding holds the unit zero. -/
theorem zero_mem_encode {text : List Char} : 0 ∈ encode text ↔ '\x00' ∈ text := by
  simp [encode, List.mem_flatMap, zero_mem_encodeChar]

end DebugSymbols.Text.Utf16
