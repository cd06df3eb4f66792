import DebugSymbols.Proofs.Bytes.Accesses

/-!
# Alignments agree

What is written is aligned by rounding an offset up, and what is read by skipping the bytes that are
missing at a position. Both come to the least multiple that is not below, for any alignment and not
only for powers of two: the quotient of a value splits it into a multiple and a remainder, and to
round up is to add what the remainder lacks.
-/

namespace DebugSymbols

namespace Bytes

variable {value alignment : Nat}

/-! ## Numbers -/

theorem paddingFor_lt (h : 0 < alignment) (value : Nat) : paddingFor value alignment < alignment :=
  Nat.mod_lt _ h

/-- A multiple lacks nothing, and any other value what its remainder lacks. -/
theorem paddingFor_eq (h : 0 < alignment) (value : Nat) :
    paddingFor value alignment =
      if value % alignment = 0 then 0 else alignment - value % alignment := by
  have hlt := Nat.mod_lt value h
  rw [paddingFor]
  split
  · rename_i hzero
    rw [hzero, Nat.sub_zero, Nat.mod_self]
  · exact Nat.mod_eq_of_lt (by omega)

/-- A value is rounded up by as many multiples as it has, and by one more if something is left. -/
theorem alignUp_eq_mul (h : 0 < alignment) (value : Nat) :
    alignUp value alignment =
      (value / alignment + if value % alignment = 0 then 0 else 1) * alignment := by
  have hlt := Nat.mod_lt value h
  have hvalue := Nat.div_add_mod value alignment
  rw [alignUp]
  congr 1
  -- what is added reaches the next multiple exactly if something is left
  split
  · rename_i hzero
    have hsplit : value + (alignment - 1) = alignment * (value / alignment) + (alignment - 1) := by
      omega
    rw [hsplit, Nat.mul_add_div h, Nat.div_eq_of_lt (Nat.sub_one_lt_of_lt h)]
  · have hsplit : value + (alignment - 1) =
        alignment * (value / alignment) + (value % alignment - 1 + alignment) := by
      omega
    have hlast : (value % alignment - 1) / alignment = 0 := Nat.div_eq_of_lt (by omega)
    rw [hsplit, Nat.mul_add_div h, Nat.add_div_right _ h, hlast]

/-- To round up is to add what is missing. -/
theorem alignUp_eq_add_paddingFor (h : 0 < alignment) (value : Nat) :
    alignUp value alignment = value + paddingFor value alignment := by
  have hlt := Nat.mod_lt value h
  have hvalue := Nat.div_add_mod' value alignment
  rw [alignUp_eq_mul h, paddingFor_eq h, Nat.add_mul]
  split
  · omega
  · omega

theorem dvd_alignUp (value alignment : Nat) : alignment ∣ alignUp value alignment :=
  Nat.dvd_mul_left _ _

/-- No multiple lies between a value and the one it is rounded up to, because less than the distance
of two multiples is added. -/
theorem alignUp_le_of_dvd (h : 0 < alignment) {multiple : Nat} (hdvd : alignment ∣ multiple)
    (hle : value ≤ multiple) : alignUp value alignment ≤ multiple := by
  obtain ⟨count, hcount⟩ := dvd_alignUp value alignment
  obtain ⟨bound, rfl⟩ := hdvd
  have hpadding := paddingFor_lt h value
  have hsum := alignUp_eq_add_paddingFor h value
  have hbelow : alignment * count < alignment * (bound + 1) := by
    rw [Nat.mul_succ]
    omega
  rw [hcount]
  exact Nat.mul_le_mul_left _ (Nat.le_of_lt_succ (Nat.lt_of_mul_lt_mul_left hbelow))

end Bytes

/-! ## Machine words -/

namespace Guarded

variable {value alignment : Nat}

/-- The quotient of two machine words. -/
def div (a b : Nat) : Guarded Nat :=
  if b = 0 then trap .division else lift (.ok (a / b))

/-- The quotient of two machine words, rounded up. -/
def divUp (a b : Nat) : Guarded Nat := do
  let quotient ← div a b
  let past ← rem a b
  if 0 < past then add quotient 1 else lift (.ok quotient)

/-- The least multiple of `alignment` that is at least `value`. -/
def alignUp (value alignment : Nat) : Guarded Nat := do
  let count ← divUp value alignment
  mul count alignment

theorem div_eq_lift {a b : Nat} (h : b ≠ 0) : div a b = lift (.ok (a / b)) := if_neg h

/-- A quotient that is rounded up is a machine word: something is left only if the divisor is not
one, and then the quotient is below the dividend. -/
theorem divUp_eq_lift {a b : Nat} (ha : a < UInt64.size) (hb : 0 < b) :
    divUp a b = lift (.ok (a / b + if a % b = 0 then 0 else 1)) := by
  have hne : b ≠ 0 := Nat.ne_of_gt hb
  rw [divUp, div_eq_lift hne, lift_ok_bind, rem_eq_lift hne, lift_ok_bind]
  by_cases hpast : a % b = 0
  · rw [if_neg (by omega), if_pos hpast, Nat.add_zero]
  · have hone : 1 < b := by
      refine Nat.lt_of_le_of_ne hb fun hone => hpast ?_
      rw [← hone, Nat.mod_one]
    have hzero : 0 < a := Nat.pos_of_ne_zero fun hzero => hpast (by rw [hzero, Nat.zero_mod])
    have hbelow : a / b < a := Nat.div_lt_self hzero hone
    rw [if_pos (Nat.pos_of_ne_zero hpast), if_neg hpast, add_eq_lift (by omega)]

/-- Only the product can be too large, and it is so if the multiple is no machine word. -/
theorem alignUp_eq (hvalue : value < UInt64.size) (h : 0 < alignment) :
    alignUp value alignment =
      if Bytes.alignUp value alignment < UInt64.size then
        lift (.ok (Bytes.alignUp value alignment))
      else trap .overflow := by
  rw [alignUp, divUp_eq_lift hvalue h, lift_ok_bind, mul, Bytes.alignUp_eq_mul h]

end Guarded

/-! ## Cursors -/

namespace Bytes

/-- A cursor is aligned by taking what is missing, if so much is left. -/
theorem Cursor.align_eq {alignment : Nat} (h : 0 < alignment) (cursor : Cursor) :
    (paddingFor cursor.position alignment ≤ cursor.remaining ∧ ∃ next,
        cursor.align alignment =
            .ok (cursor.rest.take (paddingFor cursor.position alignment), next) ∧
          next.data = cursor.data ∧ next.position = alignUp cursor.position alignment) ∨
      cursor.remaining < paddingFor cursor.position alignment ∧
        cursor.align alignment = .error .outOfBounds := by
  have hle := cursor.position_le
  rw [align, take_eq, remaining]
  by_cases hroom : cursor.position + paddingFor cursor.position alignment ≤ cursor.data.size
  · refine Or.inl ⟨by omega, ⟨cursor.data, _, hroom⟩, dif_pos hroom, rfl, ?_⟩
    rw [alignUp_eq_add_paddingFor h]
  · exact Or.inr ⟨by omega, dif_neg hroom⟩

/-- To round a value up gives the least multiple of the alignment that is at least the value, and
this is the value with its padding, which is less than the alignment. The machine computes both
without an intermediate result that is no machine word, and is stopped only if the multiple itself
is none. A cursor can be aligned exactly if as many bytes are left as the padding of its position
has; then it gives these bytes and stands at its position rounded up, and else it is out of bounds.
The machine aligns a position in place with the same outcome. -/
theorem alignments_agree (value : Nat) {alignment : Nat} (h : 0 < alignment) :
    alignment ∣ alignUp value alignment ∧ value ≤ alignUp value alignment ∧
      (∀ multiple, alignment ∣ multiple → value ≤ multiple →
        alignUp value alignment ≤ multiple) ∧
      alignUp value alignment = value + paddingFor value alignment ∧
      paddingFor value alignment < alignment ∧
      (value < UInt64.size → Guarded.alignUp value alignment =
        if alignUp value alignment < UInt64.size then .lift (.ok (alignUp value alignment))
        else .trap .overflow) ∧
      Guarded.paddingFor value alignment = .lift (.ok (paddingFor value alignment)) ∧
      ∀ cursor : Cursor,
        (paddingFor cursor.position alignment ≤ cursor.remaining ∧ (∃ next,
            cursor.align alignment =
                .ok (cursor.rest.take (paddingFor cursor.position alignment), next) ∧
              next.data = cursor.data ∧ next.position = alignUp cursor.position alignment) ∨
          cursor.remaining < paddingFor cursor.position alignment ∧
            cursor.align alignment = .error .outOfBounds) ∧
        (cursor.data.size < UInt64.size →
          (InPlace.align cursor.data.toList alignment).outcome cursor.position =
            .ok ((settle (cursor.align alignment) cursor).map id Cursor.position)) := by
  have hsum := alignUp_eq_add_paddingFor h value
  refine ⟨dvd_alignUp value alignment, ?_, fun _ => alignUp_le_of_dvd h, hsum,
    paddingFor_lt h value, fun hvalue => Guarded.alignUp_eq hvalue h,
    Guarded.paddingFor_eq_lift h value, fun cursor => ⟨cursor.align_eq h, fun hdata => ?_⟩⟩
  · rw [hsum]
    exact Nat.le_add_right _ _
  · exact Cursor.outcome_inPlace hdata (.align alignment h)

/-- Seven bytes are rounded up to twelve by an alignment that is no power of two. The last multiple
that is a machine word is found, and behind it the multiple is too large. -/
theorem alignments_agree_six :
    Guarded.alignUp 7 6 = .lift (.ok (7 + paddingFor 7 6)) ∧ 7 + paddingFor 7 6 = 12 ∧
      Guarded.alignUp (UInt64.size - 5) 6 = .lift (.ok (UInt64.size - 4)) ∧
      Guarded.alignUp (UInt64.size - 3) 6 = .trap .overflow := by
  have hsix : 0 < 6 := by decide
  obtain ⟨-, -, -, hsum, -, hseven, -⟩ := alignments_agree 7 hsix
  obtain ⟨-, -, -, -, -, hlast, -⟩ := alignments_agree (UInt64.size - 5) hsix
  obtain ⟨-, -, -, -, -, hbehind, -⟩ := alignments_agree (UInt64.size - 3) hsix
  rw [← hsum]
  exact ⟨hseven (by decide), rfl, hlast (by decide), hbehind (by decide)⟩

end Bytes

end DebugSymbols
