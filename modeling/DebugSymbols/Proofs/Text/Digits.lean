import DebugSymbols.Guid

/-!
# Numerals are read back

A numeral is a run of digits in either case, with any number of zeros in front. Reading a numeral
gives the number that it denotes, and nothing but a numeral is read as a number. A GUID is read back
from the digits of its text.
-/

namespace DebugSymbols.Text

/-! ## Digits -/

theorem digitValue?_digitChar : ∀ digit < 16, digitValue? (Nat.digitChar digit) = some digit := by
  decide

/-- What holds of all characters of a range and their distances from its start. -/
theorem of_range {low high : Char} {P : Char → Nat → Prop}
    (h : ∀ i < high.toNat - low.toNat + 1, P (Char.ofNat (low.toNat + i)) i) {c : Char}
    (hc : low ≤ c ∧ c ≤ high) : P c (c.toNat - low.toNat) := by
  have hlow : low.toNat ≤ c.toNat := UInt32.le_iff_toNat_le.1 hc.1
  have hhigh : c.toNat ≤ high.toNat := UInt32.le_iff_toNat_le.1 hc.2
  have hat := h (c.toNat - low.toNat) (by omega)
  rwa [Nat.add_sub_cancel' hlow, Char.ofNat_toNat] at hat

/-- The case of a digit does not matter. -/
theorem digitValue?_toLower (c : Char) : digitValue? c.toLower = digitValue? c := by
  by_cases hupper : 'A' ≤ c ∧ c ≤ 'Z'
  · exact of_range (P := fun c _ => digitValue? c.toLower = digitValue? c) (by decide) hupper
  · have hsame : c.toLower = c := dif_neg hupper
    rw [hsame]

/-- A digit in lower case is the character of its value. -/
theorem toLower_of_digitValue? {c : Char} {digit : Nat} (h : digitValue? c = some digit) :
    c.toLower = Nat.digitChar digit := by
  unfold digitValue? at h
  split at h
  · rename_i hrange
    cases h
    exact of_range (P := fun c i => c.toLower = Nat.digitChar i) (by decide) hrange
  · split at h
    · rename_i hrange
      cases h
      exact of_range (P := fun c i => c.toLower = Nat.digitChar (i + 10)) (by decide) hrange
    · split at h
      · rename_i hrange
        cases h
        exact of_range (P := fun c i => c.toLower = Nat.digitChar (i + 10)) (by decide) hrange
      · cases h

/-- What one digit does to the number of the digits before it. -/
def pushDigit (base value : Nat) (c : Char) : Option Nat :=
  match digitValue? c with
  | some digit => if digit < base then some (value * base + digit) else none
  | none => none

theorem pushDigit_eq_some_iff {base value n : Nat} {c : Char} :
    pushDigit base value c = some n ↔
      ∃ digit < base, digitValue? c = some digit ∧ value * base + digit = n := by
  unfold pushDigit
  cases digitValue? c with
  | none => simp
  | some digit =>
    constructor
    · intro h
      dsimp only at h
      split at h
      · rename_i hlt
        exact ⟨digit, hlt, rfl, Option.some.inj h⟩
      · cases h
    · rintro ⟨_, hlt, hdigit, rfl⟩
      cases hdigit
      exact if_pos hlt

theorem ofDigits?_eq_foldlM (base : Nat) (digits : List Char) :
    ofDigits? base digits = digits.foldlM (pushDigit base) 0 := rfl

theorem ofDigits?_concat (base : Nat) (digits : List Char) (c : Char) :
    ofDigits? base (digits ++ [c]) =
      (ofDigits? base digits).bind fun value => pushDigit base value c := by
  rw [ofDigits?_eq_foldlM, List.foldlM_append, ofDigits?_eq_foldlM]
  cases digits.foldlM (pushDigit base) 0 with
  | none => rfl
  | some value =>
    show pushDigit base value c >>= pure = pushDigit base value c
    rw [bind_pure]

theorem exists_digit_of_mem_toDigits {base n : Nat} {c : Char} (hbase : 1 < base)
    (hmem : c ∈ Nat.toDigits base n) : ∃ digit < base, c = Nat.digitChar digit := by
  induction n using Nat.strongRecOn with
  | ind n ih =>
    by_cases hlt : n < base
    · rw [Nat.toDigits_of_lt_base hlt, List.mem_singleton] at hmem
      exact ⟨n, hlt, hmem⟩
    · have hle : base ≤ n := Nat.not_lt.1 hlt
      rw [Nat.toDigits_of_base_le hbase hle, List.mem_append, List.mem_singleton] at hmem
      rcases hmem with hfront | hlast
      · have hpos : 0 < n := by omega
        exact ih (n / base) (Nat.div_lt_self hpos hbase) hfront
      · exact ⟨n % base, Nat.mod_lt n (by omega), hlast⟩

/-- A number is read from its digits. -/
theorem ofDigits?_toDigits {base : Nat} (hbase : 1 < base) (hle : base ≤ 16) (n : Nat) :
    ofDigits? base (Nat.toDigits base n) = some n := by
  have hdigit : ∀ digit < base, ∀ value,
      pushDigit base value (Nat.digitChar digit) = some (value * base + digit) := by
    intro digit hdigit value
    rw [pushDigit, digitValue?_digitChar digit (by omega)]
    exact if_pos hdigit
  induction n using Nat.strongRecOn with
  | ind n ih =>
    by_cases hlt : n < base
    · rw [Nat.toDigits_of_lt_base hlt, ← List.nil_append [Nat.digitChar n], ofDigits?_concat]
      have hread := hdigit n hlt 0
      rw [Nat.zero_mul, Nat.zero_add] at hread
      exact hread
    · have hbelow : n / base < n := Nat.div_lt_self (by omega) hbase
      rw [Nat.toDigits_of_base_le hbase (Nat.not_lt.1 hlt), ofDigits?_concat, ih _ hbelow,
        Option.bind_some, hdigit _ (Nat.mod_lt n (by omega)), Nat.div_add_mod']

/-- Zeros in front do not matter. -/
theorem ofDigits?_replicate_append {base : Nat} (hbase : 0 < base) (zeros : Nat)
    (digits : List Char) :
    ofDigits? base (List.replicate zeros '0' ++ digits) = ofDigits? base digits := by
  have hzero : pushDigit base 0 '0' = some 0 := by
    have hvalue : digitValue? '0' = some 0 := rfl
    rw [pushDigit, hvalue]
    dsimp only
    rw [if_pos hbase, Nat.zero_mul]
  induction zeros with
  | zero => rfl
  | succ zeros ih =>
    rw [List.replicate_succ, List.cons_append, ofDigits?_eq_foldlM, List.foldlM_cons, hzero]
    exact ih

/-- The case of the digits does not matter. -/
theorem ofDigits?_map_toLower (base : Nat) (digits : List Char) :
    ofDigits? base (digits.map Char.toLower) = ofDigits? base digits := by
  have hpush : ∀ value c, pushDigit base value c.toLower = pushDigit base value c := by
    intro value c
    rw [pushDigit, digitValue?_toLower, pushDigit]
  rw [ofDigits?_eq_foldlM, ofDigits?_eq_foldlM, List.foldlM_map]
  congr 1
  funext value c
  exact hpush value c

/-! ## Numerals -/

/-- Digits that denote a number in a base: in either case, and with any number of zeros in front. -/
def IsNumeral (base n : Nat) (digits : List Char) : Prop :=
  ∃ zeros, digits.map Char.toLower = List.replicate zeros '0' ++ Nat.toDigits base n

namespace IsNumeral

variable {base n : Nat} {digits : List Char}

/-- The digits of a number are a numeral, also behind zeros. -/
theorem of_toDigits (hbase : 1 < base) (hle : base ≤ 16) (zeros n : Nat) :
    IsNumeral base n (List.replicate zeros '0' ++ Nat.toDigits base n) := by
  have hlower : ∀ digit < 16, (Nat.digitChar digit).toLower = Nat.digitChar digit := by decide
  have hsame : ∀ c ∈ Nat.toDigits base n, c.toLower = id c := by
    intro c hmem
    obtain ⟨digit, hdigit, rfl⟩ := exists_digit_of_mem_toDigits hbase hmem
    exact hlower digit (by omega)
  refine ⟨zeros, ?_⟩
  rw [List.map_append, List.map_replicate, List.map_congr_left hsame, List.map_id]
  rfl

/-- A numeral is read as the number that it denotes. -/
theorem ofDigits?_eq (h : IsNumeral base n digits) (hbase : 1 < base) (hle : base ≤ 16) :
    ofDigits? base digits = some n := by
  obtain ⟨zeros, hdigits⟩ := h
  rw [← ofDigits?_map_toLower, hdigits, ofDigits?_replicate_append (by omega),
    ofDigits?_toDigits hbase hle]

theorem ne_nil (h : IsNumeral base n digits) : digits ≠ [] := by
  rintro rfl
  obtain ⟨zeros, hdigits⟩ := h
  have hback : Nat.toDigits base n = [] := (List.append_eq_nil_iff.1 hdigits.symm).2
  exact Nat.toDigits_ne_nil hback

/-- The characters of a numeral are digits of the base. -/
theorem exists_digitValue? (h : IsNumeral base n digits) (hbase : 1 < base) (hle : base ≤ 16)
    {c : Char} (hmem : c ∈ digits) : ∃ digit < base, digitValue? c = some digit := by
  obtain ⟨zeros, hdigits⟩ := h
  have hlower : c.toLower ∈ List.replicate zeros '0' ++ Nat.toDigits base n := by
    rw [← hdigits]
    exact List.mem_map_of_mem hmem
  rw [← digitValue?_toLower]
  rcases List.mem_append.1 hlower with hzero | hdigit
  · rw [List.eq_of_mem_replicate hzero]
    exact ⟨0, by omega, rfl⟩
  · obtain ⟨digit, hlt, hc⟩ := exists_digit_of_mem_toDigits hbase hdigit
    rw [hc]
    exact ⟨digit, hlt, digitValue?_digitChar digit (by omega)⟩

/-- One digit is a numeral. -/
theorem singleton {c : Char} {digit : Nat} (hvalue : digitValue? c = some digit)
    (hlt : digit < base) : IsNumeral base digit [c] := by
  refine ⟨0, ?_⟩
  rw [Nat.toDigits_of_lt_base hlt, List.map_singleton, toLower_of_digitValue? hvalue]
  rfl

/-- A numeral with one more digit is a numeral. -/
theorem concat (h : IsNumeral base n digits) (hbase : 1 < base) {c : Char} {digit : Nat}
    (hvalue : digitValue? c = some digit) (hlt : digit < base) :
    IsNumeral base (n * base + digit) (digits ++ [c]) := by
  obtain ⟨zeros, hdigits⟩ := h
  have hlast : [c].map Char.toLower = Nat.toDigits base digit := by
    rw [Nat.toDigits_of_lt_base hlt, List.map_singleton, toLower_of_digitValue? hvalue]
  rcases Nat.eq_zero_or_pos n with rfl | hpos
  · -- behind nothing but zeros, the zero that denotes the number so far is one in front
    refine ⟨zeros + 1, ?_⟩
    rw [List.map_append, hdigits, hlast, Nat.toDigits_of_lt_base (Nat.zero_lt_of_lt hbase),
      Nat.zero_mul, Nat.zero_add, List.replicate_succ']
    rfl
  · refine ⟨zeros, ?_⟩
    rw [List.map_append, hdigits, hlast, List.append_assoc,
      Nat.toDigits_append_toDigits hbase hpos hlt, Nat.mul_comm]

/-- What is read behind a numeral prolongs it. -/
theorem append (h : IsNumeral base n digits) (hbase : 1 < base) {more : List Char} {m : Nat}
    (hread : more.foldlM (pushDigit base) n = some m) : IsNumeral base m (digits ++ more) := by
  induction more generalizing n digits with
  | nil =>
    obtain rfl : n = m := Option.some.inj hread
    rwa [List.append_nil]
  | cons c more ih =>
    rw [List.foldlM_cons] at hread
    obtain ⟨value, hpush, hrest⟩ := Option.bind_eq_some_iff.1 hread
    obtain ⟨digit, hlt, hvalue, rfl⟩ := pushDigit_eq_some_iff.1 hpush
    have hlonger := ih (h.concat hbase hvalue hlt) hrest
    rwa [List.append_assoc] at hlonger

end IsNumeral

/-- The numerals of a number are the runs of digits that are read as this number. -/
theorem isNumeral_iff {base n : Nat} {digits : List Char} (hbase : 1 < base) (hle : base ≤ 16) :
    IsNumeral base n digits ↔ digits ≠ [] ∧ ofDigits? base digits = some n := by
  constructor
  · intro h
    exact ⟨h.ne_nil, h.ofDigits?_eq hbase hle⟩
  · rintro ⟨hne, hread⟩
    obtain ⟨c, rest, rfl⟩ := List.exists_cons_of_ne_nil hne
    rw [ofDigits?_eq_foldlM, List.foldlM_cons] at hread
    obtain ⟨value, hpush, hrest⟩ := Option.bind_eq_some_iff.1 hread
    obtain ⟨digit, hlt, hvalue, rfl⟩ := pushDigit_eq_some_iff.1 hpush
    rw [Nat.zero_mul, Nat.zero_add] at hrest
    exact (IsNumeral.singleton hvalue hlt).append hbase hrest

end DebugSymbols.Text

namespace DebugSymbols

/-! ## GUIDs -/

namespace Guid

/-- Groups of digits are found again between their hyphens. -/
theorem dehyphenate?_hyphenate {lengths : List Nat} (hlengths : lengths ≠ []) {digits : List Char}
    (hlength : digits.length = lengths.foldr (· + ·) 0) :
    dehyphenate? lengths (hyphenate lengths digits) = some digits := by
  induction lengths generalizing digits with
  | nil => exact absurd rfl hlengths
  | cons n rest ih =>
    cases rest with
    | nil =>
      have hall : digits.length = n := hlength
      rw [hyphenate, List.take_of_length_le (Nat.le_of_eq hall)]
      exact if_pos hall
    | cons m rest =>
      rw [List.foldr_cons] at hlength
      have hfirst : (digits.take n).length = n := by
        rw [List.length_take]
        omega
      have hothers : (digits.drop n).length = (m :: rest).foldr (· + ·) 0 := by
        rw [List.length_drop]
        omega
      have hnonempty : m :: rest ≠ [] := List.cons_ne_nil m rest
      rw [hyphenate, dehyphenate?, List.drop_left' hfirst, List.take_left' hfirst]
      · show (dehyphenate? _ (hyphenate _ (digits.drop n))).map (digits.take n ++ ·) = some digits
        rw [ih hnonempty hothers, Option.map_some, List.take_append_drop]
      · exact hnonempty
      · exact hnonempty

/-- A GUID is read from its text. -/
theorem parse?_text (guid : Guid) : parse? guid.text = some guid := by
  have hshort : (Nat.toDigits 16 guid.bits.toNat).length ≤ 32 :=
    (Nat.length_toDigits_le_iff (by decide) (by decide)).2 guid.bits.isLt
  have hlength : (Text.paddedHexDigits 32 guid.bits.toNat).length = 32 := by
    rw [Text.paddedHexDigits, List.length_append, List.length_replicate]
    exact Nat.sub_add_cancel hshort
  rw [parse?, text, String.toList_ofList, dehyphenate?_hyphenate (by decide) hlength]
  dsimp only
  rw [Text.paddedHexDigits, Text.ofDigits?_replicate_append (by decide),
    Text.ofDigits?_toDigits (by decide) (by decide), Option.map_some, BitVec.ofNat_toNat,
    BitVec.setWidth_eq]

end Guid

end DebugSymbols
