import Assaybank.Runtime.Number

/-!
Owns what a rounded arithmetic promises: results keep their order, and opposite results stay
opposite.

Contract: exact arithmetic is one such rounding, and so is `toFixed`; the arithmetic of doubles is
one as long as nothing overflows. It does not own any bound on how far a result is moved.
-/

namespace Assaybank.Runtime

/-- How an exact result becomes a number of the arithmetic. -/
structure Rounding where
  nearest : ℚ → ℚ
  mono : Monotone nearest
  neg : ∀ value, nearest (-value) = -nearest value

namespace Rounding

/-- No rounding at all. -/
def exact : Rounding := ⟨id, monotone_id, fun _ => rfl⟩

@[simp] theorem exact_nearest (value : ℚ) : exact.nearest value = value := rfl

variable (rounding : Rounding)

theorem zero : rounding.nearest 0 = 0 := by
  have opposite := rounding.neg 0
  rw [neg_zero] at opposite
  linarith

theorem nonneg {value : ℚ} (low : 0 ≤ value) : 0 ≤ rounding.nearest value := by
  rw [← rounding.zero]
  exact rounding.mono low

theorem abs_sub_comm (left right : ℚ) :
    |rounding.nearest (left - right)| = |rounding.nearest (right - left)| := by
  rw [← neg_sub right left, rounding.neg, abs_neg]

end Rounding

/-! ### A fixed number of digits -/

theorem toFixed_neg (digits : Nat) (value : ℚ) : toFixed digits (-value) = -toFixed digits value := by
  unfold toFixed
  rw [abs_neg]
  split_ifs with huge below above above
  · rfl
  · linarith
  · rw [neg_neg]
  · rw [neg_neg]
  · have zero : value = 0 := by linarith
    rw [zero]
    simp

private theorem round_mono {left right : ℚ} (ordered : left ≤ right) : round left ≤ round right := by
  rw [round_eq, round_eq]
  exact Int.floor_le_floor (add_le_add_left ordered _)

private theorem onGrid_huge (digits : Nat) : OnGrid digits (10 ^ 21) :=
  ⟨10 ^ 21 * 10 ^ digits, by push_cast; rfl⟩

/-- The part of the order between numbers that are not negative. -/
private theorem toFixed_mono_nonneg {digits : Nat} {left right : ℚ} (low : 0 ≤ left)
    (ordered : left ≤ right) : toFixed digits left ≤ toFixed digits right := by
  have scale : (0 : ℚ) < 10 ^ digits := by positivity
  by_cases huge : 10 ^ 21 ≤ |right|
  · have same : toFixed digits right = right := if_pos huge
    rw [same]
    by_cases alsoHuge : 10 ^ 21 ≤ |left|
    · rw [toFixed, if_pos alsoHuge]
      exact ordered
    · rw [abs_of_nonneg low, not_le] at alsoHuge
      rw [abs_of_nonneg (low.trans ordered)] at huge
      exact (toFixed_le (onGrid_huge digits) alsoHuge.le).trans huge
  · have small : ¬ 10 ^ 21 ≤ |left| := by
      rw [abs_of_nonneg low]
      rw [abs_of_nonneg (low.trans ordered)] at huge
      exact fun above => huge (above.trans ordered)
    rw [toFixed, toFixed, if_neg small, if_neg huge, if_neg (not_lt.mpr low),
      if_neg (not_lt.mpr (low.trans ordered))]
    have rounded := round_mono (mul_le_mul_of_nonneg_right ordered scale.le)
    exact div_le_div_of_nonneg_right (Int.cast_le.mpr rounded) scale.le

theorem toFixed_mono (digits : Nat) : Monotone (toFixed digits) := by
  intro left right ordered
  rcases le_or_gt 0 left with low | negative
  · exact toFixed_mono_nonneg low ordered
  · rcases le_or_gt 0 right with above | alsoNegative
    · exact (toFixed_le (onGrid_zero digits) negative.le).trans (le_toFixed (onGrid_zero digits) above)
    · have opposite : toFixed digits (-right) ≤ toFixed digits (-left) :=
        toFixed_mono_nonneg (neg_nonneg.mpr alsoNegative.le) (neg_le_neg ordered)
      rw [toFixed_neg, toFixed_neg] at opposite
      exact neg_le_neg_iff.mp opposite

/-- Rounding to a number of digits. -/
def Rounding.fixed (digits : Nat) : Rounding := ⟨toFixed digits, toFixed_mono digits, toFixed_neg digits⟩

end Assaybank.Runtime
