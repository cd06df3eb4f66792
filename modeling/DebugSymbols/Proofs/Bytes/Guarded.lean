import DebugSymbols.Proofs.Bytes.Cursor

/-!
# Computations with guards

A machine stops at an index or a slice out of range and at an operation whose result is no machine
word. Here such a stop is a `Trap`, and it is told from a failure: a `Guarded` computation is
trapped, or it fails, or it has a value. The operations of this module are those of the machine,
each with its guard. A cursor that moves is guarded as well, so that it never stands behind the end
of its bytes.

`Guarded.lift` is a computation that is not trapped. To prove that a guarded computation is never
trapped is to write it as such a lift, step by step; `lift_bind` gives each step what is known from
the ones before.
-/

namespace DebugSymbols

/-- What a machine stops at. -/
inductive Trap
  /-- An index that no item has. -/
  | index
  /-- A slice that ends before it starts, or behind the last item. -/
  | slice
  /-- A result that is no machine word. -/
  | overflow
  /-- A division by zero. -/
  | division
  /-- A reservation of more bytes than an object can have. -/
  | capacity
  /-- A cursor behind the end of its bytes. -/
  | position
deriving DecidableEq, Repr

/-- A computation that may be trapped, and else fails or has a value. -/
abbrev Guarded (α : Type) : Type := ExceptT SymbolError (Except Trap) α

namespace Guarded

open Bytes (Cursor Word)

variable {α β : Type}

/-! ## Operations -/

/-- Is trapped. -/
def trap (reason : Trap) : Guarded α := ExceptT.mk (.error reason)

/-- Has the outcome of a computation without guards. -/
def lift (result : Except SymbolError α) : Guarded α := ExceptT.mk (.ok result)

/-- The item with an index. -/
def index (items : List α) (i : Nat) : Guarded α :=
  match items[i]? with
  | some item => lift (.ok item)
  | none => trap .index

/-- The items from `start` up to `stop`. -/
def slice (items : List α) (start stop : Nat) : Guarded (List α) :=
  if start ≤ stop ∧ stop ≤ items.length then lift (.ok ((items.drop start).take (stop - start)))
  else trap .slice

/-- The sum of two machine words. -/
def add (a b : Nat) : Guarded Nat :=
  if a + b < UInt64.size then lift (.ok (a + b)) else trap .overflow

/-- The difference of two machine words. -/
def sub (a b : Nat) : Guarded Nat :=
  if b ≤ a then lift (.ok (a - b)) else trap .overflow

/-- The product of two machine words. -/
def mul (a b : Nat) : Guarded Nat :=
  if a * b < UInt64.size then lift (.ok (a * b)) else trap .overflow

/-- The remainder of two machine words. -/
def rem (a b : Nat) : Guarded Nat :=
  if b = 0 then trap .division else lift (.ok (a % b))

/-- The difference of two 32-bit words. -/
def subWord (a b : UInt32) : Guarded UInt32 :=
  if b ≤ a then lift (.ok (a - b)) else trap .overflow

/-- The sum of two machine words, if it is one. -/
def checkedAdd (a b : Nat) : Option Nat := if a + b < UInt64.size then some (a + b) else none

/-- The product of two machine words, if it is one. -/
def checkedMul (a b : Nat) : Option Nat := if a * b < UInt64.size then some (a * b) else none

/-- Reserves memory for `count` items of `width` bytes each. No object is larger than half of what a
machine word can count. -/
def reserve (count width : Nat) : Guarded Unit :=
  if 2 * (count * width) < UInt64.size then lift (.ok ()) else trap .capacity

/-- The cursor at another position of the same bytes. -/
def moveTo (cursor : Cursor) (position : Nat) : Guarded Cursor :=
  if h : position ≤ cursor.data.size then lift (.ok ⟨cursor.data, position, h⟩)
  else trap .position

/-- Takes the next `count` bytes. -/
def take (cursor : Cursor) (count : Nat) : Guarded (List UInt8 × Cursor) :=
  match checkedAdd cursor.position count with
  | none => lift (.error .outOfBounds)
  | some stop => do
    if cursor.data.size < stop then lift (.error .outOfBounds)
    let bytes ← slice cursor.data.toList cursor.position stop
    let next ← moveTo cursor stop
    return (bytes, next)

/-- Takes the bytes up to the next multiple of `alignment`. -/
def align (cursor : Cursor) (alignment : Nat) : Guarded (List UInt8 × Cursor) := do
  let past ← rem cursor.position alignment
  let missing ← sub alignment past
  let padding ← rem missing alignment
  take cursor padding

/-- Takes the next integer. -/
def read (α : Type) [Word α] (cursor : Cursor) : Guarded (α × Cursor) := do
  let (bytes, next) ← take cursor (Word.width α)
  if bytes.length ≠ Word.width α then lift (.error .outOfBounds)
  return (Word.ofBytes bytes, next)

/-! ## Computations without a trap -/

@[simp] theorem run_lift (result : Except SymbolError α) : (lift result).run = .ok result := rfl

/-- A lift is not trapped if what follows it is not trapped at any value that it may have. -/
theorem lift_bind {result : Except SymbolError α} {next : α → Guarded β}
    {step : α → Except SymbolError β} (h : ∀ a, result = .ok a → next a = lift (step a)) :
    lift result >>= next = lift (result >>= step) := by
  cases result with
  | error error => rfl
  | ok a => exact h a rfl

/-- What follows a value is not trapped if it is not trapped at this value. -/
@[simp] theorem lift_ok_bind (a : α) (next : α → Guarded β) : lift (.ok a) >>= next = next a := rfl

theorem slice_eq_lift {items : List α} {start stop : Nat} (hstart : start ≤ stop)
    (hstop : stop ≤ items.length) :
    slice items start stop = lift (.ok ((items.drop start).take (stop - start))) :=
  if_pos ⟨hstart, hstop⟩

theorem add_eq_lift {a b : Nat} (h : a + b < UInt64.size) : add a b = lift (.ok (a + b)) := if_pos h

theorem sub_eq_lift {a b : Nat} (h : b ≤ a) : sub a b = lift (.ok (a - b)) := if_pos h

/-- Four bytes without the eight bytes of a head. -/
example : (sub 4 8).run = .error .overflow := rfl

theorem mul_eq_lift {a b : Nat} (h : a * b < UInt64.size) : mul a b = lift (.ok (a * b)) := if_pos h

theorem rem_eq_lift {a b : Nat} (h : b ≠ 0) : rem a b = lift (.ok (a % b)) := if_neg h

theorem subWord_eq_lift {a b : UInt32} (h : b ≤ a) : subWord a b = lift (.ok (a - b)) := if_pos h

theorem checkedAdd_eq_some {a b : Nat} (h : a + b < UInt64.size) : checkedAdd a b = some (a + b) :=
  if_pos h

theorem checkedMul_eq_some {a b : Nat} (h : a * b < UInt64.size) : checkedMul a b = some (a * b) :=
  if_pos h

theorem reserve_eq_lift {count width : Nat} (h : 2 * (count * width) < UInt64.size) :
    reserve count width = lift (.ok ()) := if_pos h

theorem moveTo_eq_lift {cursor : Cursor} {position : Nat} (h : position ≤ cursor.data.size) :
    moveTo cursor position = lift (.ok ⟨cursor.data, position, h⟩) := dif_pos h

/-! ## Cursors -/

/-- Bytes are taken without a trap, wherever a machine word can say where they end. -/
theorem take_eq_lift {cursor : Cursor} {count : Nat} (h : cursor.position + count < UInt64.size) :
    take cursor count = lift (cursor.take count) := by
  rw [take, checkedAdd_eq_some h]
  dsimp only
  by_cases hroom : cursor.position + count ≤ cursor.data.size
  · rw [if_neg (Nat.not_lt.2 hroom), slice_eq_lift (Nat.le_add_right _ _) (by simpa using hroom),
      lift_ok_bind, moveTo_eq_lift hroom, lift_ok_bind, Nat.add_sub_cancel_left, Cursor.take_eq,
      dif_pos hroom, Cursor.rest_eq_drop]
    rfl
  · rw [if_pos (Nat.not_le.1 hroom), Cursor.take_eq, dif_neg hroom]
    rfl

theorem align_eq_lift {cursor : Cursor} {alignment : Nat} (halignment : 0 < alignment)
    (h : cursor.position + alignment < UInt64.size) :
    align cursor alignment = lift (cursor.align alignment) := by
  have hpadding : (alignment - cursor.position % alignment) % alignment < alignment :=
    Nat.mod_lt _ halignment
  have hne : alignment ≠ 0 := Nat.ne_of_gt halignment
  have hpast : cursor.position % alignment ≤ alignment := Nat.le_of_lt (Nat.mod_lt _ halignment)
  rw [align, rem_eq_lift hne, lift_ok_bind, sub_eq_lift hpast, lift_ok_bind, rem_eq_lift hne,
    lift_ok_bind, take_eq_lift (by omega)]
  rfl

theorem read_eq_lift {α : Type} [Word α] {cursor : Cursor}
    (h : cursor.position + Word.width α < UInt64.size) : read α cursor = lift (cursor.read α) := by
  rw [read, take_eq_lift h, Cursor.read]
  cases htake : cursor.take (Word.width α) with
  | error error => rfl
  | ok taken =>
    rw [lift_ok_bind]
    have hlength := (Cursor.take_eq_ok_iff.1 htake).1
    refine (if_neg ?_).trans rfl
    intro hne
    exact hne hlength

end Guarded

end DebugSymbols
