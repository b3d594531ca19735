import Assaybank.Runtime.Number
import Mathlib.Algebra.Order.Ring.Rat

/-!
Owns the whole numbers a double holds: the safe integers, and the double nearest to a natural
number.

Contract: up to `2 ^ 53` every natural number is a double (`nearestDouble_eq`).
-/

namespace Assaybank.Runtime

/-- `Number.MAX_SAFE_INTEGER`. -/
def JsDouble.MAX_SAFE_INTEGER : Nat := 2 ^ 53 - 1

/-- `Number.isSafeInteger(value)`. -/
def JsDouble.isSafeInteger : JsDouble → Bool
  | .finite value => value.den == 1 && decide (|value| ≤ MAX_SAFE_INTEGER)
  | _ => false

theorem JsDouble.isSafeInteger_natCast {n : Nat} :
    JsDouble.isSafeInteger (.finite n) = true ↔ n ≤ JsDouble.MAX_SAFE_INTEGER := by
  simp only [isSafeInteger, Rat.den_natCast, beq_self_eq_true, Bool.true_and, decide_eq_true_eq,
    Nat.abs_cast, Nat.cast_le]

/-- The double nearest to a natural number, with an even last bit where two are as near. -/
def nearestDouble (n : Nat) : Nat :=
  let unit := 2 ^ (n.log2 - 52)
  let below := n / unit * unit
  let rest := n % unit
  if 2 * rest < unit ∨ 2 * rest = unit ∧ n / unit % 2 = 0 then below else below + unit

theorem nearestDouble_eq {n : Nat} (small : n < 2 ^ 53) : nearestDouble n = n := by
  have exponent : n.log2 - 52 = 0 := by
    by_cases zero : n = 0
    · rw [zero]
      rfl
    · have bound := (Nat.log2_lt zero).mpr small
      omega
  rw [nearestDouble, exponent, pow_zero, Nat.mod_one, Nat.div_one, Nat.mul_one,
    if_pos (Or.inl Nat.zero_lt_one)]

example : nearestDouble (2 ^ 53 + 1) = 2 ^ 53 ∧ nearestDouble (2 ^ 53 + 3) = 2 ^ 53 + 4 := by
  decide +kernel

end Assaybank.Runtime
