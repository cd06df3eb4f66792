import DebugSymbols.Bytes.Cursor
import DebugSymbols.Proofs.Attempt

/-!
# What a cursor passes

A successful read is described by the bytes it passes: `cursor.Passes bytes next` says that `bytes`
stand behind `cursor` and that `next` is the cursor behind them. Each operation of a cursor succeeds
exactly if there are such bytes of the right shape, and passing one sequence after the other is
passing both, so a reader is described by the bytes it passes as a whole.
-/

namespace DebugSymbols.Bytes.Cursor

/-- A cursor is its sequence and its position. -/
theorem eq_of_position {a b : Cursor} (hdata : a.data = b.data)
    (hposition : a.position = b.position) : a = b := by
  cases a
  cases b
  cases hdata
  cases hposition
  rfl

theorem rest_eq_drop (cursor : Cursor) : cursor.rest = cursor.data.toList.drop cursor.position := by
  rw [rest, Array.toList_extract, List.extract_eq_take_drop]
  exact List.take_of_length_le (Nat.le_of_eq (by rw [List.length_drop, Array.length_toList]))

@[simp] theorem rest_start (data : List UInt8) : (start data).rest = data := by
  simp [rest_eq_drop, start]

/-- There are no bytes behind the position exactly if there is no more. -/
theorem hasMore_eq_false {cursor : Cursor} : cursor.hasMore = false ↔ cursor.rest = [] := by
  rw [rest_eq_drop, List.drop_eq_nil_iff, Array.length_toList]
  simp [hasMore]

/-- `bytes` stand behind the cursor, and `next` stands behind them in the same sequence. -/
structure Passes (cursor : Cursor) (bytes : List UInt8) (next : Cursor) : Prop where
  data_eq : next.data = cursor.data
  position_eq : next.position = cursor.position + bytes.length
  rest_eq : cursor.rest = bytes ++ next.rest

/-- Between two positions stand the same bytes. -/
theorem Passes.bytes_eq {cursor next : Cursor} {a b : List UInt8} (ha : cursor.Passes a next)
    (hb : cursor.Passes b next) : a = b :=
  List.append_cancel_right (ha.rest_eq.symm.trans hb.rest_eq)

/-- To pass no bytes is to stay. -/
theorem passes_nil_iff {cursor next : Cursor} : cursor.Passes [] next ↔ next = cursor := by
  constructor
  · rintro ⟨hdata, hposition, -⟩
    exact eq_of_position hdata hposition
  · rintro rfl
    exact ⟨rfl, rfl, rfl⟩

/-- To pass two sequences is to pass one after the other. -/
theorem passes_append_iff {cursor next : Cursor} {front back : List UInt8} :
    cursor.Passes (front ++ back) next ↔
      ∃ middle, cursor.Passes front middle ∧ middle.Passes back next := by
  constructor
  · rintro ⟨hdata, hposition, hrest⟩
    have hbound : cursor.position + front.length ≤ cursor.data.size := by
      have h := next.position_le
      rw [hdata, hposition, List.length_append] at h
      omega
    let middle : Cursor := ⟨cursor.data, cursor.position + front.length, hbound⟩
    have hmiddle : middle.rest = back ++ next.rest := by
      rw [rest_eq_drop, ← List.drop_drop, ← rest_eq_drop, hrest, List.append_assoc,
        List.drop_left]
    refine ⟨middle, ⟨rfl, rfl, ?_⟩, ⟨hdata, ?_, hmiddle⟩⟩
    · rw [hmiddle, hrest, List.append_assoc]
    · rw [hposition, List.length_append, Nat.add_assoc]
  · rintro ⟨middle, hfront, hback⟩
    refine ⟨hback.data_eq.trans hfront.data_eq, ?_, ?_⟩
    · rw [hback.position_eq, hfront.position_eq, List.length_append, Nat.add_assoc]
    · rw [hfront.rest_eq, hback.rest_eq, List.append_assoc]

theorem length_rest (cursor : Cursor) :
    cursor.rest.length = cursor.data.size - cursor.position := by
  rw [rest_eq_drop, List.length_drop, Array.length_toList]

/-- The bytes that are taken are the first ones behind the position. -/
theorem take_eq (cursor : Cursor) (count : Nat) :
    cursor.take count =
      if h : cursor.position + count ≤ cursor.data.size then
        .ok (cursor.rest.take count, ⟨cursor.data, cursor.position + count, h⟩)
      else .error .outOfBounds := by
  have hbytes : (cursor.data.extract cursor.position (cursor.position + count)).toList =
      cursor.rest.take count := by
    rw [rest_eq_drop, Array.toList_extract, List.extract_eq_take_drop, Nat.add_sub_cancel_left]
  rw [take, hbytes]

/-- To take bytes is to pass so many of them. -/
theorem take_eq_ok_iff {cursor next : Cursor} {count : Nat} {bytes : List UInt8} :
    cursor.take count = .ok (bytes, next) ↔ bytes.length = count ∧ cursor.Passes bytes next := by
  rw [take_eq]
  constructor
  · intro h
    split at h
    · rename_i hle
      cases h
      have hlength : (cursor.rest.take count).length = count := by
        rw [List.length_take, length_rest]
        omega
      have hlast : rest ⟨cursor.data, cursor.position + count, hle⟩ = cursor.rest.drop count := by
        rw [rest_eq_drop, rest_eq_drop, List.drop_drop]
      refine ⟨hlength, rfl, by rw [hlength], ?_⟩
      rw [hlast, List.take_append_drop]
    · cases h
  · rintro ⟨rfl, hdata, hposition, hrest⟩
    have hle : cursor.position + bytes.length ≤ cursor.data.size := by
      rw [← hposition, ← hdata]
      exact next.position_le
    rw [dif_pos hle, hrest, List.take_left]
    exact congrArg (fun last => Except.ok (bytes, last))
      (eq_of_position hdata.symm hposition.symm)

/-- Bytes that stand behind a cursor can be taken. -/
theorem exists_take {cursor : Cursor} {count : Nat} (h : count ≤ cursor.rest.length) :
    ∃ bytes next, cursor.take count = .ok (bytes, next) := by
  have hle := cursor.position_le
  rw [length_rest] at h
  rw [take, dif_pos (by omega)]
  exact ⟨_, _, rfl⟩

/-- More bytes than stand behind a cursor are out of bounds. -/
theorem take_eq_outOfBounds {cursor : Cursor} {count : Nat} (h : cursor.rest.length < count) :
    cursor.take count = .error .outOfBounds := by
  have hle := cursor.position_le
  rw [length_rest] at h
  rw [take, dif_neg (by omega)]

theorem failsOnly_take {allowed : SymbolError → Prop} (hallowed : allowed .outOfBounds)
    (cursor : Cursor) (count : Nat) : FailsOnly allowed (cursor.take count) := by
  rw [take]
  split
  · exact FailsOnly.ok _
  · exact FailsOnly.error hallowed

/-- To align a cursor is to pass as many bytes as are missing. -/
theorem align_eq_ok_iff {cursor next : Cursor} {alignment : Nat} {bytes : List UInt8} :
    cursor.align alignment = .ok (bytes, next) ↔
      bytes.length = paddingFor cursor.position alignment ∧ cursor.Passes bytes next :=
  take_eq_ok_iff

/-- To read an integer is to pass its bytes. -/
theorem read_eq_ok_iff {α : Type} [Word α] {cursor next : Cursor} {value : α} :
    cursor.read α = .ok (value, next) ↔ cursor.Passes (Word.toBytes value) next := by
  constructor
  · intro h
    obtain ⟨⟨bytes, last⟩, htake, hvalue⟩ := map_eq_ok_iff.1 h
    cases hvalue
    obtain ⟨hlength, hpasses⟩ := take_eq_ok_iff.1 htake
    rw [Word.toBytes_ofBytes hlength]
    exact hpasses
  · intro h
    have htake := take_eq_ok_iff.2 ⟨Word.length_toBytes value, h⟩
    rw [read, htake]
    show Except.ok (Word.ofBytes (Word.toBytes value), next) = _
    rw [Word.ofBytes_toBytes]

theorem position_of_read {α : Type} [Word α] {cursor next : Cursor} {value : α}
    (h : cursor.read α = .ok (value, next)) :
    next.position = cursor.position + Word.width α := by
  rw [(read_eq_ok_iff.1 h).position_eq, Word.length_toBytes]

theorem length_rest_of_read {α : Type} [Word α] {cursor next : Cursor} {value : α}
    (h : cursor.read α = .ok (value, next)) :
    cursor.rest.length = Word.width α + next.rest.length := by
  rw [(read_eq_ok_iff.1 h).rest_eq, List.length_append, Word.length_toBytes]

theorem data_of_read {α : Type} [Word α] {cursor next : Cursor} {value : α}
    (h : cursor.read α = .ok (value, next)) : next.data = cursor.data :=
  (read_eq_ok_iff.1 h).data_eq

/-- An integer whose bytes stand behind a cursor can be read. -/
theorem exists_read (α : Type) [Word α] {cursor : Cursor} (h : Word.width α ≤ cursor.rest.length) :
    ∃ value next, cursor.read α = .ok (value, next) := by
  obtain ⟨bytes, next, htake⟩ := exists_take h
  rw [read, htake]
  exact ⟨_, _, rfl⟩

/-- An integer with more bytes than stand behind a cursor is out of bounds. -/
theorem read_eq_outOfBounds (α : Type) [Word α] {cursor : Cursor}
    (h : cursor.rest.length < Word.width α) : cursor.read α = .error .outOfBounds := by
  rw [read, take_eq_outOfBounds h]
  rfl

theorem failsOnly_read {allowed : SymbolError → Prop} (hallowed : allowed .outOfBounds)
    (α : Type) [Word α] (cursor : Cursor) : FailsOnly allowed (cursor.read α) :=
  (failsOnly_take hallowed cursor _).map _

/-- A cursor passes all of a sequence exactly if nothing stands behind it. -/
theorem start_passes_iff {data bytes : List UInt8} :
    (∃ last, (start data).Passes bytes last ∧ last.hasMore = false) ↔ data = bytes := by
  constructor
  · rintro ⟨last, hpasses, hmore⟩
    have hrest := hpasses.rest_eq
    rw [rest_start, hasMore_eq_false.1 hmore, List.append_nil] at hrest
    exact hrest
  · rintro rfl
    let last : Cursor := ⟨data.toArray, data.length, by simp⟩
    have hrest : last.rest = [] := by simp [rest_eq_drop, last]
    refine ⟨last, ⟨rfl, ?_, ?_⟩, hasMore_eq_false.2 hrest⟩
    · exact (Nat.zero_add _).symm
    · rw [rest_start, hrest, List.append_nil]

end DebugSymbols.Bytes.Cursor
