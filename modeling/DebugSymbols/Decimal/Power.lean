/-!
# Powers of two and ten

The scales of binary and of decimal numbers.
-/

namespace DebugSymbols.Decimal

/-- Two to the power of `n`. -/
def twoPower (n : Nat) : Nat := Nat.pow 2 n

/-- Ten to the power of `n`. -/
def tenPower (n : Nat) : Nat := Nat.pow 10 n

@[simp] theorem twoPower_zero : twoPower 0 = 1 := rfl

@[simp] theorem tenPower_zero : tenPower 0 = 1 := rfl

theorem twoPower_succ (n : Nat) : twoPower (n + 1) = 2 * twoPower n := Nat.mul_comm _ _

theorem tenPower_succ (n : Nat) : tenPower (n + 1) = 10 * tenPower n := Nat.mul_comm _ _

end DebugSymbols.Decimal
