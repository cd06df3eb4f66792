import DebugSymbols.Proofs.Bytes.Guarded
import DebugSymbols.Proofs.Metadata.Faults

/-!
# Reading is never trapped

The decoder once more, with every operation that a machine could stop at under its guard: each index
and slice, each sum, difference and product of machine words, each reservation, and each move of a
cursor. None of the guards is ever met. What keeps them from it was often checked long before: the
least size of a record, the even length of a class name, the terminator that was found in it, the
order of the ends of a range. So each part is proved from what was read in front of it.

Positions are machine words as well. A blob has at most 255 records of less than 2³² bytes, and so
its cursor stays far below the largest word, however many bytes follow.
-/

namespace DebugSymbols.Guarded

open Bytes (Cursor Word)
open Metadata (Record RecordKind malformed recordHeadSize)

/-! ## The decoder with guards -/

/-- Passes the zero bytes up to the next multiple of four. -/
def skipPadding (cursor : Cursor) : Guarded Cursor := do
  let (padding, cursor) ← align cursor 4
  if padding.any (· != 0) then lift (malformed (.headerPadding cursor.position))
  return cursor

/-- The items two by two; a last single item is left out. -/
def pairs : List UInt8 → List (List UInt8)
  | low :: high :: rest => [low, high] :: pairs rest
  | _ => []

/-- The code units in a payload. -/
def unitsOf (payload : List UInt8) : Guarded (List UInt16) :=
  (pairs payload).mapM fun pair => do
    let low ← index pair 0
    let high ← index pair 1
    return Word.ofBytes [low, high]

/-- Reads the payload of a class record. -/
def decodeIteratorClass (payload : List UInt8) : Guarded Record := do
  let odd ← rem payload.length 2
  if odd ≠ 0 then lift (malformed .oddClassName)
  let units ← unitsOf payload
  let name := units.takeWhile (· != 0)
  if name.length = units.length then lift (malformed .unterminatedClassName)
  let terminated ← add name.length 1
  let consumed ← mul terminated 2
  let padding ← slice payload consumed payload.length
  if padding.any (· != 0) then lift (malformed .classNamePadding)
  let excess ← sub payload.length consumed
  if 4 ≤ excess then lift (malformed (.excessClassNamePadding excess))
  match Text.Utf16.decode? name with
  | none => lift (malformed .classNameEncoding)
  | some chars => return .iteratorClass (String.ofList chars)

/-- Reads the next `count` ranges. -/
def decodeRanges : Nat → Cursor → Guarded (List Span)
  | 0, _ => return []
  | count + 1, cursor => do
    let (start, cursor) ← read UInt32 cursor
    let (stop, cursor) ← read UInt32 cursor
    if stop < start then lift (malformed (.invertedScope start stop))
    let length ← subWord stop start
    let rest ← decodeRanges count cursor
    return ⟨start, length⟩ :: rest

/-- Reads the payload of a scopes record. A range takes eight bytes of memory. -/
def decodeIteratorScopes (payload : List UInt8) : Guarded Record := do
  let (count, cursor) ← read UInt32 (Cursor.start payload)
  let expected := (checkedMul count.toNat 8).bind fun size => checkedAdd size 4
  if expected ≠ some payload.length then
    lift (malformed (.scopeCount count.toNat payload.length))
  reserve count.toNat 8
  let scopes ← decodeRanges count.toNat cursor
  return .iteratorScopes scopes

/-- Reads the payload of a record of the given kind. -/
def decodePayload (kind : UInt8) (payload : List UInt8) : Guarded Record :=
  match RecordKind.ofCode? kind with
  | some .forwardIterator => decodeIteratorClass payload
  | some .iteratorScopes => decodeIteratorScopes payload
  | _ => return .unknown kind payload

/-- Reads one record. -/
def decodeRecord (cursor : Cursor) : Guarded (Record × Cursor) := do
  let start := cursor.position
  let (found, cursor) ← read UInt8 cursor
  if found ≠ Metadata.version then lift (malformed (.recordVersion found))
  let (kind, cursor) ← read UInt8 cursor
  let cursor ← skipPadding cursor
  let (size, cursor) ← read UInt32 cursor
  let past ← rem size.toNat 4
  if size.toNat < recordHeadSize ∨ past ≠ 0 then
    lift (malformed (.recordSize size.toNat start))
  let length ← sub size.toNat recordHeadSize
  let (payload, cursor) ← take cursor length
  let record ← decodePayload kind payload
  return (record, cursor)

/-- Reads the next `count` records. -/
def decodeRecords : Nat → Cursor → Guarded (List Record × Cursor)
  | 0, cursor => return ([], cursor)
  | count + 1, cursor => do
    let (record, cursor) ← decodeRecord cursor
    let (rest, cursor) ← decodeRecords count cursor
    return (record :: rest, cursor)

/-- Reads a blob. A record takes 32 bytes of memory, and more behind them. -/
def decode (data : List UInt8) : Guarded (List Record) := do
  let (found, cursor) ← read UInt8 (Cursor.start data)
  if found ≠ Metadata.version then lift (malformed (.version found))
  let (count, cursor) ← read UInt8 cursor
  let cursor ← skipPadding cursor
  reserve count.toNat 32
  let (records, cursor) ← decodeRecords count.toNat cursor
  if cursor.hasMore then lift (malformed (.trailingBytes cursor.remaining count.toNat))
  return records

/-! ## Checks -/

variable {α β γ : Type}

/-- A check is not trapped, and what follows it is not trapped if the check finds no fault. -/
theorem lift_check {p : Prop} [Decidable p] {fault : BlobFault} {next : α → Guarded β}
    {next' : γ → Except SymbolError β} {guarded : Guarded β} {result : Except SymbolError β}
    (h : ¬ p → guarded = lift result) :
    (if p then lift (malformed fault) >>= next else guarded) =
      lift (if p then malformed fault >>= next' else result) := by
  by_cases hp : p
  · rw [if_pos hp, if_pos hp]
    rfl
  · rw [if_neg hp, if_neg hp]
    exact h hp

theorem size_uInt64 : UInt64.size = 18446744073709551616 := rfl

theorem size_uInt32 : UInt32.size = 4294967296 := rfl

theorem skipPadding_eq_lift {cursor : Cursor} (h : cursor.position + 4 < UInt64.size) :
    skipPadding cursor = lift (Metadata.skipPadding cursor) := by
  rw [skipPadding, align_eq_lift (by decide) h, Metadata.skipPadding]
  exact lift_bind fun _ _ => lift_check fun _ => rfl

/-! ## Payloads -/

theorem unitsOf_eq_lift : ∀ payload : List UInt8,
    unitsOf payload = lift (.ok (Metadata.unitsOf payload))
  | [] => rfl
  | [_] => rfl
  | low :: high :: rest => by
    have hrest := unitsOf_eq_lift rest
    rw [unitsOf] at hrest
    rw [unitsOf, pairs, List.mapM_cons, hrest]
    rfl

theorem length_unitsOf : ∀ payload : List UInt8,
    (Metadata.unitsOf payload).length = payload.length / 2
  | [] => rfl
  | [byte] => by
    rw [List.length_singleton]
    rfl
  | low :: high :: rest => by
    rw [Metadata.unitsOf, List.length_cons, length_unitsOf rest, List.length_cons, List.length_cons]
    omega

theorem decodeIteratorClass_eq_lift {payload : List UInt8} (h : payload.length < UInt32.size) :
    decodeIteratorClass payload = lift (Metadata.decodeIteratorClass payload) := by
  rw [decodeIteratorClass, rem_eq_lift (by decide), lift_ok_bind, Metadata.decodeIteratorClass]
  refine lift_check fun _ => ?_
  rw [unitsOf_eq_lift, lift_ok_bind]
  refine lift_check fun hterminated => ?_
  -- the terminator is a code unit of the payload, so what it ends is in the payload
  have hterminator : ((Metadata.unitsOf payload).takeWhile (· != 0)).length <
      payload.length / 2 := by
    rw [← length_unitsOf]
    exact Nat.lt_of_le_of_ne (List.takeWhile_sublist _).length_le hterminated
  generalize (Metadata.unitsOf payload).takeWhile (· != 0) = name at hterminator ⊢
  have hsize := size_uInt64
  have hconsumed : (name.length + 1) * 2 ≤ payload.length := by omega
  have hpadding : (payload.drop ((name.length + 1) * 2)).take
      (payload.length - (name.length + 1) * 2) = payload.drop (2 * (name.length + 1)) := by
    rw [Nat.mul_comm]
    exact List.take_of_length_le (by rw [List.length_drop])
  have hexcess : payload.length - (name.length + 1) * 2 =
      (payload.drop (2 * (name.length + 1))).length := by
    rw [List.length_drop, Nat.mul_comm]
  rw [size_uInt32] at h
  rw [add_eq_lift (by omega), lift_ok_bind, mul_eq_lift (by omega), lift_ok_bind,
    slice_eq_lift hconsumed (Nat.le_refl _), lift_ok_bind, hpadding]
  refine lift_check fun _ => ?_
  rw [sub_eq_lift hconsumed, lift_ok_bind, hexcess]
  refine lift_check fun _ => ?_
  cases Text.Utf16.decode? name with
  | none => rfl
  | some chars => rfl

/-- In a payload, the end of a word is a machine word. -/
theorem readWord_eq_lift {cursor : Cursor} (h : cursor.data.size < UInt32.size) :
    read UInt32 cursor = lift (cursor.read UInt32) := by
  have hle := cursor.position_le
  have hwidth : Word.width UInt32 = 4 := rfl
  have hword := size_uInt64
  rw [size_uInt32] at h
  exact read_eq_lift (by omega)

theorem decodeRanges_eq_lift {count : Nat} {cursor : Cursor}
    (h : cursor.data.size < UInt32.size) :
    decodeRanges count cursor = lift (Metadata.decodeRanges count cursor) := by
  induction count generalizing cursor with
  | zero => rfl
  | succ count ih =>
    rw [decodeRanges, readWord_eq_lift h, Metadata.decodeRanges]
    refine lift_bind ?_
    rintro ⟨start, middle⟩ hstart
    have hmiddle : middle.data.size < UInt32.size := by
      rw [Cursor.data_of_read hstart]
      exact h
    dsimp only
    rw [readWord_eq_lift hmiddle]
    refine lift_bind ?_
    rintro ⟨stop, last⟩ hstop
    have hlast : last.data.size < UInt32.size := by
      rw [Cursor.data_of_read hstop]
      exact hmiddle
    refine lift_check fun hordered => ?_
    dsimp only
    rw [subWord_eq_lift (UInt32.not_lt.1 hordered), lift_ok_bind, ih hlast]
    exact lift_bind fun _ _ => rfl

theorem decodeIteratorScopes_eq_lift {payload : List UInt8} (h : payload.length < UInt32.size) :
    decodeIteratorScopes payload = lift (Metadata.decodeIteratorScopes payload) := by
  have hword := size_uInt64
  have hstart : (Cursor.start payload).data.size < UInt32.size := h
  rw [decodeIteratorScopes, readWord_eq_lift hstart, Metadata.decodeIteratorScopes]
  refine lift_bind ?_
  rintro ⟨count, cursor⟩ hcount
  have hlt := count.toNat_lt
  have hexpected : ((checkedMul count.toNat 8).bind fun size => checkedAdd size 4) =
      some (8 * count.toNat + 4) := by
    rw [checkedMul_eq_some (by omega), Option.bind_some, checkedAdd_eq_some (by omega), Nat.mul_comm]
  have hdata : cursor.data.size < UInt32.size := by
    rw [Cursor.data_of_read hcount]
    exact hstart
  dsimp only
  simp only [hexpected, ne_eq, Option.some.injEq]
  refine lift_check fun _ => ?_
  rw [reserve_eq_lift (by omega), lift_ok_bind, decodeRanges_eq_lift hdata]
  exact lift_bind fun _ _ => rfl

theorem decodePayload_eq_lift (kind : UInt8) {payload : List UInt8}
    (h : payload.length < UInt32.size) :
    decodePayload kind payload = lift (Metadata.decodePayload kind payload) := by
  rw [decodePayload, Metadata.decodePayload]
  cases RecordKind.ofCode? kind with
  | none => rfl
  | some known =>
    cases known with
    | forwardIterator => exact decodeIteratorClass_eq_lift h
    | iteratorScopes => exact decodeIteratorScopes_eq_lift h
    | usingInfo | forwardInfo | forwardToModuleInfo => rfl

/-! ## Records -/

theorem decodeRecord_eq_lift {cursor : Cursor} (haligned : cursor.position % 4 = 0)
    (h : cursor.position + 0x200000000 ≤ UInt64.size) :
    decodeRecord cursor = lift (Metadata.decodeRecord cursor) := by
  have hword := size_uInt64
  have hbyte : Word.width UInt8 = 1 := rfl
  have hwidth : Word.width UInt32 = 4 := rfl
  have hshort := size_uInt32
  rw [decodeRecord, read_eq_lift (by omega), Metadata.decodeRecord]
  refine lift_bind ?_
  rintro ⟨found, first⟩ hfound
  have hfirst := Cursor.position_of_read hfound
  refine lift_check fun _ => ?_
  dsimp only
  rw [read_eq_lift (by omega)]
  refine lift_bind ?_
  rintro ⟨kind, second⟩ hkind
  have hsecond := Cursor.position_of_read hkind
  dsimp only
  rw [skipPadding_eq_lift (by omega)]
  refine lift_bind ?_
  intro third hpadding
  have hthird : third.position = second.position + 2 :=
    ((Metadata.skipPadding_eq_ok_iff (by omega)).1 hpadding).position_eq
  rw [read_eq_lift (by omega)]
  refine lift_bind ?_
  rintro ⟨size, fourth⟩ hsize
  have hfourth := Cursor.position_of_read hsize
  have hlt := size.toNat_lt
  dsimp only
  rw [rem_eq_lift (by decide), lift_ok_bind]
  refine lift_check fun haccepted => ?_
  rw [not_or, Nat.not_lt] at haccepted
  rw [sub_eq_lift haccepted.1, lift_ok_bind, take_eq_lift (by omega)]
  refine lift_bind ?_
  rintro ⟨payload, last⟩ hpayload
  have hlength := (Cursor.take_eq_ok_iff.1 hpayload).1
  dsimp only
  rw [decodePayload_eq_lift kind (by omega)]
  exact lift_bind fun _ _ => rfl

/-- Each record leaves room for the ones behind it. -/
theorem decodeRecords_eq_lift {count : Nat} {cursor : Cursor} (haligned : cursor.position % 4 = 0)
    (h : cursor.position + (count + 1) * 0x100000000 ≤ UInt64.size) :
    decodeRecords count cursor = lift (Metadata.decodeRecords count cursor) := by
  induction count generalizing cursor with
  | zero => rfl
  | succ count ih =>
    have hshort := size_uInt32
    rw [decodeRecords, decodeRecord_eq_lift haligned (by omega), Metadata.decodeRecords]
    refine lift_bind ?_
    rintro ⟨record, middle⟩ hrecord
    obtain ⟨hvalid, hpasses⟩ := (Metadata.decodeRecord_eq_ok_iff haligned).1 hrecord
    have hmiddle := hpasses.position_eq
    have hmod := hvalid.sound.length_payload_mod
    have hlt := hvalid.size_lt
    rw [Record.length_layout] at hmiddle
    have hmiddle_aligned : middle.position % 4 = 0 := by
      rw [hmiddle, Record.size]
      omega
    dsimp only
    rw [ih hmiddle_aligned (by omega)]
    exact lift_bind fun _ _ => rfl

theorem decode_eq_lift (data : List UInt8) : decode data = lift (Metadata.decode data) := by
  have hword := size_uInt64
  have hshort := size_uInt32
  have hbyte : Word.width UInt8 = 1 := rfl
  have hzero : (Cursor.start data).position = 0 := rfl
  rw [decode, read_eq_lift (by omega), Metadata.decode]
  refine lift_bind ?_
  rintro ⟨found, first⟩ hfound
  have hfirst := Cursor.position_of_read hfound
  refine lift_check fun _ => ?_
  dsimp only
  rw [read_eq_lift (by omega)]
  refine lift_bind ?_
  rintro ⟨count, second⟩ hcount
  have hsecond := Cursor.position_of_read hcount
  have hlt := count.toNat_lt
  dsimp only
  rw [skipPadding_eq_lift (by omega)]
  refine lift_bind ?_
  intro third hpadding
  have hthird : third.position = second.position + 2 :=
    ((Metadata.skipPadding_eq_ok_iff (by omega)).1 hpadding).position_eq
  rw [reserve_eq_lift (by omega), lift_ok_bind, decodeRecords_eq_lift (by omega) (by omega)]
  refine lift_bind ?_
  rintro ⟨records, last⟩ -
  exact lift_check fun _ => rfl

/-- Reading is never trapped: for every sequence of bytes, the decoder with guards has the outcome
of the decoder, and so no guard of it is met. This outcome is the records, or out of bounds, or a
fault of the blob. -/
theorem decode_never_trapped (data : List UInt8) :
    (decode data).run = .ok (Metadata.decode data) ∧
      ∀ error, Metadata.decode data = .error error → error = .outOfBounds ∨ error.IsMalformed := by
  refine ⟨?_, fun error h => SymbolError.OfBlob.eq_or_isMalformed _ (Metadata.failsOnly_decode _ _ h)⟩
  rw [decode_eq_lift, run_lift]

end DebugSymbols.Guarded
