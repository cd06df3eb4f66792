import DebugSymbols.Bytes.Buffer
import DebugSymbols.Proofs.Attempt
import DebugSymbols.Proofs.Bytes.Guarded

/-!
# Accesses in place

A machine does not hand on a new position or a new buffer: it changes the one that it has, and what
it has changed before it fails stays changed. The accesses of this module are such changes, with the
guards of the machine. A position is any machine word here, also one behind the end of the bytes.

`settle` says what a computation that hands on its next state does in place, provided that it
changes nothing before it fails. Each access is shown to be settled in this sense and never to be
trapped, wherever the number of the bytes is a machine word; the offset and the number of bytes that
are asked for can then be anything.
-/

namespace DebugSymbols

open Bytes (Word readAt writeAt)

/-- A computation that changes a state in place. It may be trapped, and if it fails it has reached a
state nevertheless. -/
abbrev InPlace (σ α : Type) : Type := ExceptT SymbolError (StateT σ (Except Trap)) α

/-- What a computation that gives its next state leaves in place: this state, or if it fails the one
from before. -/
def settle {σ α : Type} (result : Except SymbolError (α × σ)) (state : σ) :
    Except SymbolError α × σ :=
  match result with
  | .ok (value, next) => (.ok value, next)
  | .error error => (.error error, state)

namespace Guarded

/-- The end of `count` bytes behind an offset, if it lies within `length` bytes. -/
def stop (offset count length : Nat) : Guarded Nat :=
  match checkedAdd offset count with
  | none => lift (.error .outOfBounds)
  | some stop => if length < stop then lift (.error .outOfBounds) else lift (.ok stop)

/-- Replaces the items from `start` up to `stop` by as many others. -/
def overwrite (items : List UInt8) (start stop : Nat) (bytes : List UInt8) :
    Guarded (List UInt8) :=
  if start ≤ stop ∧ stop ≤ items.length ∧ bytes.length = stop - start then
    lift (.ok (items.take start ++ bytes ++ items.drop stop))
  else trap .slice

/-- The number of bytes from `length` to the next multiple of `alignment`. -/
def paddingFor (length alignment : Nat) : Guarded Nat := do
  let past ← rem length alignment
  let missing ← sub alignment past
  rem missing alignment

/-- An end that is no machine word lies behind all bytes. -/
theorem stop_eq_lift {length : Nat} (hlength : length < UInt64.size) (offset count : Nat) :
    stop offset count length =
      lift (if offset + count ≤ length then .ok (offset + count) else .error .outOfBounds) := by
  rw [stop]
  by_cases hword : offset + count < UInt64.size
  · rw [checkedAdd_eq_some hword]
    dsimp only
    by_cases hroom : offset + count ≤ length
    · rw [if_neg (Nat.not_lt.2 hroom), if_pos hroom]
    · rw [if_pos (Nat.not_le.1 hroom), if_neg hroom]
  · have hnone : checkedAdd offset count = none := if_neg hword
    rw [hnone, if_neg (by omega)]

theorem overwrite_eq_lift {items bytes : List UInt8} {start stop : Nat} (hstart : start ≤ stop)
    (hstop : stop ≤ items.length) (hlength : bytes.length = stop - start) :
    overwrite items start stop bytes =
      lift (.ok (items.take start ++ bytes ++ items.drop stop)) :=
  if_pos ⟨hstart, hstop, hlength⟩

/-- No remainder exceeds its divisor, so the missing bytes can be counted. -/
theorem paddingFor_eq_lift {alignment : Nat} (h : 0 < alignment) (length : Nat) :
    paddingFor length alignment = lift (.ok (Bytes.paddingFor length alignment)) := by
  have hne : alignment ≠ 0 := Nat.ne_of_gt h
  have hpast : length % alignment ≤ alignment := Nat.le_of_lt (Nat.mod_lt _ h)
  rw [paddingFor, rem_eq_lift hne, lift_ok_bind, sub_eq_lift hpast, lift_ok_bind, rem_eq_lift hne,
    Bytes.paddingFor]

end Guarded

namespace InPlace

variable {σ α β : Type}

/-- The outcome of a computation from a state, together with the state it has reached. -/
def outcome (computation : InPlace σ α) (state : σ) : Except Trap (Except SymbolError α × σ) :=
  computation.run.run state

/-- The computation that leaves the state alone. -/
def guarded (computation : Guarded α) : InPlace σ α :=
  ExceptT.mk fun state => computation.run.map fun result => (result, state)

/-! ## Accesses -/

/-- Takes the next `count` bytes and moves the position behind them. -/
def take (data : List UInt8) (count : Nat) : InPlace Nat (List UInt8) := do
  let position ← get
  let stop ← guarded (.stop position count data.length)
  let bytes ← guarded (.slice data position stop)
  set stop
  return bytes

/-- Takes the bytes up to the next multiple of `alignment`. -/
def align (data : List UInt8) (alignment : Nat) : InPlace Nat (List UInt8) := do
  let position ← get
  let padding ← guarded (.paddingFor position alignment)
  take data padding

/-- Takes the integer at the position and moves behind it. -/
def read (α : Type) [Word α] (data : List UInt8) : InPlace Nat α := do
  let position ← get
  let stop ← guarded (.stop position (Word.width α) data.length)
  let bytes ← guarded (.slice data position stop)
  if bytes.length = Word.width α then do
    set stop
    return Word.ofBytes bytes
  else throw .outOfBounds

/-- The bytes behind the position. -/
def rest (data : List UInt8) : InPlace Nat (List UInt8) := do
  let position ← get
  guarded (.slice data (min position data.length) data.length)

/-- Writes an integer into the buffer, and then moves the offset behind it. -/
def write [Word α] (value : α) : InPlace (List UInt8 × Nat) Unit := do
  let (buffer, offset) ← get
  let stop ← guarded (.stop offset (Word.width α) buffer.length)
  let changed ← guarded (.overwrite buffer offset stop (Word.toBytes value))
  set (changed, offset)
  set (changed, stop)

/-! ## Outcomes -/

theorem outcome_get_bind (next : σ → InPlace σ α) (state : σ) :
    (get >>= next).outcome state = (next state).outcome state := rfl

theorem outcome_set_bind (reached state : σ) (next : PUnit → InPlace σ α) :
    (set reached >>= next).outcome state = (next ⟨⟩).outcome reached := rfl

theorem outcome_pure (value : α) (state : σ) :
    (pure value : InPlace σ α).outcome state = .ok (.ok value, state) := rfl

theorem outcome_guarded_lift (result : Except SymbolError α) (state : σ) :
    (guarded (.lift result)).outcome state = .ok (result, state) := rfl

/-- What follows a computation that leaves the state alone starts from this state. -/
theorem outcome_guarded_ok_bind (a : α) (next : α → InPlace σ β) (state : σ) :
    (guarded (.lift (.ok a)) >>= next).outcome state = (next a).outcome state := rfl

theorem outcome_guarded_error_bind (error : SymbolError) (next : α → InPlace σ β) (state : σ) :
    (guarded (.lift (.error error)) >>= next).outcome state = .ok (.error error, state) := rfl

/-! ## Accesses that are settled -/

/-- Bytes are taken if so many of them are left, and else the position stays. -/
theorem outcome_take {data : List UInt8} (hdata : data.length < UInt64.size)
    (count position : Nat) :
    (take data count).outcome position = .ok
      (if position + count ≤ data.length then
        (.ok ((data.drop position).take count), position + count)
      else (.error .outOfBounds, position)) := by
  rw [take, outcome_get_bind, Guarded.stop_eq_lift hdata]
  by_cases hroom : position + count ≤ data.length
  · rw [if_pos hroom, if_pos hroom, outcome_guarded_ok_bind,
      Guarded.slice_eq_lift (Nat.le_add_right _ _) hroom, outcome_guarded_ok_bind,
      outcome_set_bind, outcome_pure, Nat.add_sub_cancel_left]
  · rw [if_neg hroom, if_neg hroom, outcome_guarded_error_bind]

theorem outcome_align {data : List UInt8} {alignment : Nat} (halignment : 0 < alignment)
    (position : Nat) :
    (align data alignment).outcome position =
      (take data (Bytes.paddingFor position alignment)).outcome position := by
  rw [align, outcome_get_bind, Guarded.paddingFor_eq_lift halignment, outcome_guarded_ok_bind]

theorem outcome_rest (data : List UInt8) (position : Nat) :
    (rest data).outcome position = .ok (.ok (data.drop position), position) := by
  have hdrop : (data.drop (min position data.length)).take
      (data.length - min position data.length) = data.drop position := by
    rw [List.take_of_length_le (Nat.le_of_eq (by rw [List.length_drop]))]
    rcases Nat.le_total position data.length with hle | hle
    · rw [Nat.min_eq_left hle]
    · rw [Nat.min_eq_right hle, List.drop_length, List.drop_eq_nil_of_le hle]
  rw [rest, outcome_get_bind, Guarded.slice_eq_lift (Nat.min_le_right _ _) (Nat.le_refl _), hdrop,
    outcome_guarded_lift]

theorem outcome_read (α : Type) [Word α] {data : List UInt8} (hdata : data.length < UInt64.size)
    (position : Nat) :
    (read α data).outcome position = .ok (settle (readAt α data position) position) := by
  rw [read, outcome_get_bind, Guarded.stop_eq_lift hdata, readAt]
  by_cases hroom : position + Word.width α ≤ data.length
  · have hlength : ((data.drop position).take (Word.width α)).length = Word.width α := by
      rw [List.length_take, List.length_drop]
      omega
    rw [if_pos hroom, if_pos hroom, outcome_guarded_ok_bind,
      Guarded.slice_eq_lift (Nat.le_add_right _ _) hroom, outcome_guarded_ok_bind,
      Nat.add_sub_cancel_left, if_pos hlength]
    rfl
  · rw [if_neg hroom, if_neg hroom]
    rfl

/-- The buffer is changed before the offset is, but behind the last guard. -/
theorem outcome_write [Word α] (value : α) {buffer : List UInt8}
    (hbuffer : buffer.length < UInt64.size) (offset : Nat) :
    (write value).outcome (buffer, offset) =
      .ok (settle ((writeAt buffer offset value).map fun reached => ((), reached))
        (buffer, offset)) := by
  rw [write, outcome_get_bind]
  dsimp only
  rw [Guarded.stop_eq_lift hbuffer, writeAt]
  by_cases hroom : offset + Word.width α ≤ buffer.length
  · have hlength : (Word.toBytes value).length = offset + Word.width α - offset := by
      rw [Word.length_toBytes, Nat.add_sub_cancel_left]
    rw [if_pos hroom, if_pos hroom, outcome_guarded_ok_bind,
      Guarded.overwrite_eq_lift (Nat.le_add_right _ _) hroom hlength, outcome_guarded_ok_bind]
    rfl
  · rw [if_neg hroom, if_neg hroom]
    rfl

end InPlace

end DebugSymbols
