/-!
# Little-endian words

Fixed-width integers are stored as bytes with the least significant byte first. `Word` names the
types that can be stored: a width and the conversion to and from natural numbers below the
capacity of so many bytes. Signed integers are stored as their two's complement.

`ofBytes_toBytes` and `toBytes_ofBytes` say that storing and reading are inverse to each other.
-/

namespace DebugSymbols.Bytes

/-- The number of values that `width` bytes can hold. -/
def capacity : (width : Nat) → Nat
  | 0 => 1
  | width + 1 => 256 * capacity width

/-- The `width` low bytes of a number, least significant first. -/
def ofNat : (width n : Nat) → List UInt8
  | 0, _ => []
  | width + 1, n => UInt8.ofNat n :: ofNat width (n / 256)

/-- The number that bytes stand for, least significant first. -/
def toNat : List UInt8 → Nat
  | [] => 0
  | byte :: rest => byte.toNat + 256 * toNat rest

@[simp] theorem length_ofNat (width n : Nat) : (ofNat width n).length = width := by
  induction width generalizing n with
  | zero => rfl
  | succ width ih => simp [ofNat, ih]

theorem toNat_ofNat (width n : Nat) : toNat (ofNat width n) = n % capacity width := by
  induction width generalizing n with
  | zero => simp [ofNat, toNat, capacity, Nat.mod_one]
  | succ width ih => simp only [ofNat, toNat, ih, UInt8.toNat_ofNat', capacity, Nat.mod_mul]

theorem toNat_lt (bytes : List UInt8) : toNat bytes < capacity bytes.length := by
  induction bytes with
  | nil => simp [toNat, capacity]
  | cons byte rest ih =>
    have := byte.toNat_lt
    simp only [toNat, List.length_cons, capacity]
    omega

theorem ofNat_toNat (bytes : List UInt8) : ofNat bytes.length (toNat bytes) = bytes := by
  induction bytes with
  | nil => rfl
  | cons byte rest ih =>
    have hdiv : (byte.toNat + 256 * toNat rest) / 256 = toNat rest := by
      have := byte.toNat_lt
      omega
    simp only [toNat, List.length_cons, ofNat, hdiv, ih, List.cons.injEq, and_true]
    apply UInt8.toNat_inj.1
    have := byte.toNat_lt
    simp only [UInt8.toNat_ofNat']
    omega

/-- Integers of a fixed number of bytes. -/
class Word (α : Type) where
  width : Nat
  toNat : α → Nat
  ofNat : Nat → α
  toNat_lt : ∀ value : α, toNat value < capacity width
  ofNat_toNat : ∀ value : α, ofNat (toNat value) = value
  toNat_ofNat : ∀ n : Nat, n < capacity width → toNat (ofNat n) = n

namespace Word

instance : Word UInt8 where
  width := 1
  toNat := UInt8.toNat
  ofNat := UInt8.ofNat
  toNat_lt value := value.toNat_lt
  ofNat_toNat _ := UInt8.ofNat_toNat
  toNat_ofNat n h := by simpa [capacity] using h

instance : Word UInt16 where
  width := 2
  toNat := UInt16.toNat
  ofNat := UInt16.ofNat
  toNat_lt value := value.toNat_lt
  ofNat_toNat _ := UInt16.ofNat_toNat
  toNat_ofNat n h := by simpa [capacity] using h

instance : Word UInt32 where
  width := 4
  toNat := UInt32.toNat
  ofNat := UInt32.ofNat
  toNat_lt value := value.toNat_lt
  ofNat_toNat _ := UInt32.ofNat_toNat
  toNat_ofNat n h := by simpa [capacity] using h

instance : Word Int32 where
  width := 4
  toNat value := value.toUInt32.toNat
  ofNat n := (UInt32.ofNat n).toInt32
  toNat_lt value := value.toUInt32.toNat_lt
  ofNat_toNat value := by simp
  toNat_ofNat n h := by simpa [capacity] using h

instance : Word UInt64 where
  width := 8
  toNat := UInt64.toNat
  ofNat := UInt64.ofNat
  toNat_lt value := value.toNat_lt
  ofNat_toNat _ := UInt64.ofNat_toNat
  toNat_ofNat n h := by simpa [capacity] using h

variable {α : Type} [Word α]

/-- The bytes of an integer. -/
def toBytes (value : α) : List UInt8 := Bytes.ofNat (width α) (toNat value)

/-- The integer that bytes stand for. -/
def ofBytes (bytes : List UInt8) : α := ofNat (Bytes.toNat bytes)

@[simp] theorem length_toBytes (value : α) : (toBytes value).length = width α := by
  simp [toBytes]

theorem ofBytes_toBytes (value : α) : ofBytes (toBytes value) = value := by
  simp only [ofBytes, toBytes, Bytes.toNat_ofNat, Nat.mod_eq_of_lt (toNat_lt value), ofNat_toNat]

theorem toBytes_ofBytes {bytes : List UInt8} (h : bytes.length = width α) :
    toBytes (ofBytes bytes : α) = bytes := by
  have hlt : Bytes.toNat bytes < capacity (width α) := h ▸ Bytes.toNat_lt bytes
  simp only [toBytes, ofBytes, toNat_ofNat _ hlt, ← h, Bytes.ofNat_toNat]

end Word

end DebugSymbols.Bytes
