import DebugSymbols.Proofs.Bytes.InPlace

/-!
# Integers written and read in place

A write is described byte by byte: inside its range stand the digits of the integer to the base of
256, the least significant first, and outside of it stands what stood there before. From this the
laws of a store follow without another look at the bytes: a read behind a write gives what was
written, to write what was read changes nothing, and writes to different places commute.
-/

namespace DebugSymbols.Bytes

variable {α β : Type} [Word α] [Word β]

/-- The digits of a number to the base of 256. -/
theorem getElem?_ofNat {width i : Nat} (n : Nat) (h : i < width) :
    (ofNat width n)[i]? = some (UInt8.ofNat (n / capacity i)) := by
  induction width generalizing n i with
  | zero => exact absurd h (Nat.not_lt_zero i)
  | succ width ih =>
    cases i with
    | zero => rw [ofNat, List.getElem?_cons_zero, capacity, Nat.div_one]
    | succ i =>
      rw [ofNat, List.getElem?_cons_succ, ih _ (Nat.lt_of_succ_lt_succ h), Nat.div_div_eq_div_mul,
        capacity]

/-! ## Writes -/

/-- The buffer that an attempt to write an integer leaves. -/
def written (buffer : List UInt8) (offset : Nat) (value : α) : List UInt8 :=
  match writeAt buffer offset value with
  | .ok (changed, _) => changed
  | .error _ => buffer

/-- A write has room, or it is out of bounds. -/
theorem writeAt_eq (buffer : List UInt8) (offset : Nat) (value : α) :
    writeAt buffer offset value =
      if offset + Word.width α ≤ buffer.length then
        .ok (written buffer offset value, offset + Word.width α)
      else .error .outOfBounds := by
  rw [written, writeAt]
  split <;> rfl

theorem writeAt_eq_ok_iff {buffer changed : List UInt8} {offset next : Nat} {value : α} :
    writeAt buffer offset value = .ok (changed, next) ↔
      offset + Word.width α ≤ buffer.length ∧ changed = written buffer offset value ∧
        next = offset + Word.width α := by
  rw [writeAt_eq]
  split
  · rename_i hroom
    simp [hroom, eq_comm]
  · rename_i hroom
    simp [hroom]

/-- What a write leaves, byte by byte. -/
theorem getElem?_written (buffer : List UInt8) (offset : Nat) (value : α) (i : Nat) :
    (written buffer offset value)[i]? =
      if offset + Word.width α ≤ buffer.length ∧ offset ≤ i ∧ i < offset + Word.width α then
        (Word.toBytes value)[i - offset]?
      else buffer[i]? := by
  by_cases hroom : offset + Word.width α ≤ buffer.length
  · have hfront : (buffer.take offset).length = offset := by
      rw [List.length_take]
      omega
    have hbytes : (Word.toBytes value).length = Word.width α := Word.length_toBytes value
    rw [written, writeAt, if_pos hroom]
    dsimp only
    rw [List.append_assoc]
    rcases Nat.lt_or_ge i offset with hi | hi
    · rw [if_neg (by omega), List.getElem?_append_left (by omega), List.getElem?_take_of_lt hi]
    · rw [List.getElem?_append_right (by omega), hfront]
      rcases Nat.lt_or_ge i (offset + Word.width α) with hlast | hlast
      · rw [if_pos ⟨hroom, hi, hlast⟩, List.getElem?_append_left (by omega)]
      · rw [if_neg (by omega), List.getElem?_append_right (by omega), List.getElem?_drop, hbytes]
        exact congrArg (buffer[·]?) (by omega)
  · rw [written, writeAt, if_neg hroom, if_neg fun h => hroom h.1]

theorem length_written (buffer : List UInt8) (offset : Nat) (value : α) :
    (written buffer offset value).length = buffer.length := by
  rw [written, writeAt]
  by_cases hroom : offset + Word.width α ≤ buffer.length
  · rw [if_pos hroom]
    dsimp only
    rw [List.length_append, List.length_append, List.length_take, List.length_drop,
      Word.length_toBytes]
    omega
  · rw [if_neg hroom]

/-- Whether there is room for an integer depends on the length of the buffer only. -/
theorem map_writeAt_of_length_eq {a b : List UInt8} (h : a.length = b.length) (offset : Nat)
    (value : α) : (writeAt a offset value).map (·.2) = (writeAt b offset value).map (·.2) := by
  rw [writeAt_eq, writeAt_eq, h]
  split <;> rfl

/-- Writes to places that do not overlap leave the same buffer in either order. -/
theorem written_comm {offset place : Nat}
    (hapart : offset + Word.width α ≤ place ∨ place + Word.width β ≤ offset)
    (buffer : List UInt8) (value : α) (other : β) :
    written (written buffer offset value) place other =
      written (written buffer place other) offset value := by
  apply List.ext_getElem?
  intro i
  -- no byte is in both ranges, so at most one of the writes is seen at it
  simp only [getElem?_written, length_written]
  by_cases hfirst : offset ≤ i ∧ i < offset + Word.width α
  · have hsecond : ¬(place + Word.width β ≤ buffer.length ∧ place ≤ i ∧
        i < place + Word.width β) := by omega
    simp only [if_neg hsecond]
  · have hfirst' : ¬(offset + Word.width α ≤ buffer.length ∧ offset ≤ i ∧
        i < offset + Word.width α) := fun h => hfirst h.2
    simp only [if_neg hfirst']

/-! ## Reads -/

theorem readAt_eq_ok_iff {buffer : List UInt8} {offset next : Nat} {value : α} :
    readAt α buffer offset = .ok (value, next) ↔
      offset + Word.width α ≤ buffer.length ∧ next = offset + Word.width α ∧
        (buffer.drop offset).take (Word.width α) = Word.toBytes value := by
  rw [readAt]
  by_cases hroom : offset + Word.width α ≤ buffer.length
  · have hlength : ((buffer.drop offset).take (Word.width α)).length = Word.width α := by
      rw [List.length_take, List.length_drop]
      omega
    rw [if_pos hroom]
    constructor
    · intro h
      cases h
      exact ⟨hroom, rfl, (Word.toBytes_ofBytes hlength).symm⟩
    · rintro ⟨-, rfl, hbytes⟩
      rw [hbytes, Word.ofBytes_toBytes]
  · rw [if_neg hroom]
    constructor
    · intro h
      cases h
    · rintro ⟨h, -⟩
      exact absurd h hroom

theorem exists_readAt_iff {buffer : List UInt8} {offset : Nat} :
    (∃ value next, readAt α buffer offset = .ok (value, next)) ↔
      offset + Word.width α ≤ buffer.length := by
  rw [readAt]
  split
  · rename_i hroom
    exact ⟨fun _ => hroom, fun _ => ⟨_, _, rfl⟩⟩
  · rename_i hroom
    simp [hroom]

/-- A read behind a write at the same place gives what was written. -/
theorem readAt_written {buffer : List UInt8} {offset : Nat}
    (hroom : offset + Word.width α ≤ buffer.length) (value : α) :
    readAt α (written buffer offset value) offset = .ok (value, offset + Word.width α) := by
  rw [readAt_eq_ok_iff, length_written]
  refine ⟨hroom, rfl, List.ext_getElem? fun i => ?_⟩
  rcases Nat.lt_or_ge i (Word.width α) with hi | hi
  · rw [List.getElem?_take_of_lt hi, List.getElem?_drop, getElem?_written,
      if_pos (by omega), Nat.add_sub_cancel_left]
  · have hbytes : (Word.toBytes value).length ≤ i := by rwa [Word.length_toBytes]
    rw [List.getElem?_eq_none hbytes, List.getElem?_eq_none]
    exact Nat.le_trans (List.length_take_le _ _) hi

/-- To write back what was read changes nothing. -/
theorem written_of_readAt {buffer : List UInt8} {offset next : Nat} {value : α}
    (h : readAt α buffer offset = .ok (value, next)) : written buffer offset value = buffer := by
  obtain ⟨hroom, -, hbytes⟩ := readAt_eq_ok_iff.1 h
  rw [written, writeAt, if_pos hroom, ← hbytes, ← List.drop_drop, List.append_assoc,
    List.take_append_drop, List.take_append_drop]

/-! ## The laws together -/

/-- An integer of any width can be written at an offset, and read there, exactly if it ends within
the buffer; else both are out of bounds, and the write leaves the buffer as it is. A write moves the
offset behind the integer, puts its digits there, and changes nothing outside of them, nor the
length; a read at the old offset gives the integer back. To write back what a read has given changes
nothing. Writes to places that do not overlap leave the same buffer in either order, and neither has
an effect on whether there is room for the other. The machine does the same in place without being
trapped, whatever the offset is: what fails leaves the buffer and the offset as they were. -/
theorem integers_in_place (buffer : List UInt8) (offset : Nat) (value : α) :
    let stop := offset + Word.width α
    let changed := written buffer offset value
    (stop ≤ buffer.length ∧ writeAt buffer offset value = .ok (changed, stop) ∧
          (∀ i < Word.width α,
            changed[offset + i]? = some (UInt8.ofNat (Word.toNat value / capacity i))) ∧
          readAt α changed offset = .ok (value, stop) ∧
          (∃ found, readAt α buffer offset = .ok (found, stop) ∧
            writeAt buffer offset found = .ok (buffer, stop)) ∨
        buffer.length < stop ∧ writeAt buffer offset value = .error .outOfBounds ∧
          readAt α buffer offset = .error .outOfBounds ∧ changed = buffer) ∧
      changed.length = buffer.length ∧
      (∀ i, i < offset ∨ stop ≤ i → changed[i]? = buffer[i]?) ∧
      (∀ (β : Type) [Word β] (other : β) (place : Nat),
        stop ≤ place ∨ place + Word.width β ≤ offset →
          written changed place other = written (written buffer place other) offset value ∧
            (writeAt changed place other).map (·.2) = (writeAt buffer place other).map (·.2) ∧
            (writeAt (written buffer place other) offset value).map (·.2) =
              (writeAt buffer offset value).map (·.2)) ∧
      (buffer.length < UInt64.size →
        (InPlace.write value).outcome (buffer, offset) =
            .ok (settle ((writeAt buffer offset value).map fun reached => ((), reached))
              (buffer, offset)) ∧
          (InPlace.read α buffer).outcome offset =
            .ok (settle (readAt α buffer offset) offset)) := by
  intro stop changed
  refine ⟨?_, length_written buffer offset value, ?_, ?_, ?_⟩
  · rcases Nat.lt_or_ge buffer.length stop with hshort | hroom
    · have hnot : ¬offset + Word.width α ≤ buffer.length := Nat.not_le.2 hshort
      have hwrite : writeAt buffer offset value = .error .outOfBounds := if_neg hnot
      refine Or.inr ⟨hshort, hwrite, if_neg hnot, ?_⟩
      show written buffer offset value = buffer
      rw [written, hwrite]
    · obtain ⟨found, next, hread⟩ := exists_readAt_iff.2 hroom
      obtain ⟨-, rfl, -⟩ := readAt_eq_ok_iff.1 hread
      have hback := written_of_readAt hread
      refine Or.inl ⟨hroom, writeAt_eq_ok_iff.2 ⟨hroom, rfl, rfl⟩, fun i hi => ?_,
        readAt_written hroom value, found, hread,
        writeAt_eq_ok_iff.2 ⟨hroom, hback.symm, rfl⟩⟩
      show (written buffer offset value)[offset + i]? = _
      rw [getElem?_written, if_pos ⟨hroom, Nat.le_add_right _ _, Nat.add_lt_add_left hi _⟩,
        Nat.add_sub_cancel_left, Word.toBytes, getElem?_ofNat _ hi]
  · intro i hi
    show (written buffer offset value)[i]? = _
    rw [getElem?_written, if_neg (by omega)]
  · intro β _ other place hapart
    exact ⟨written_comm hapart buffer value other,
      map_writeAt_of_length_eq (length_written buffer offset value) place other,
      map_writeAt_of_length_eq (length_written buffer place other) offset value⟩
  · intro hsize
    exact ⟨InPlace.outcome_write value hsize offset, InPlace.outcome_read α hsize offset⟩

/-- A negative number between two bytes that stay, and a byte for which no offset is left. -/
theorem integers_in_place_negative :
    let buffer : List UInt8 := [1, 2, 3, 4, 5, 6]
    let changed := written buffer 1 (-2 : Int32)
    changed = [1, 254, 255, 255, 255, 6] ∧ readAt Int32 changed 1 = .ok (-2, 5) ∧
      written changed 5 (7 : UInt8) = written (written buffer 5 (7 : UInt8)) 1 (-2 : Int32) ∧
      (InPlace.write (7 : UInt8)).outcome (buffer, UInt64.size - 1) =
        .ok (.error .outOfBounds, buffer, UInt64.size - 1) := by
  intro buffer changed
  obtain ⟨hverdict, -, -, hcomm, -⟩ := integers_in_place buffer 1 (-2 : Int32)
  obtain ⟨hverdict', -, -, -, hmachine⟩ :=
    integers_in_place buffer (UInt64.size - 1) (7 : UInt8)
  obtain ⟨-, -, -, hread, -⟩ | ⟨hshort, -⟩ := hverdict
  · obtain ⟨hroom, -⟩ | ⟨-, hwrite, -⟩ := hverdict'
    · exact absurd hroom (by decide)
    · obtain ⟨hmachine, -⟩ := hmachine (by decide)
      rw [hwrite] at hmachine
      exact ⟨by cbv, hread, (hcomm UInt8 7 5 (by decide)).1, hmachine⟩
  · exact absurd hshort (by decide)

end DebugSymbols.Bytes
