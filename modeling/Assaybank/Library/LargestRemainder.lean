import Mathlib.Algebra.BigOperators.Ring.Finset
import Mathlib.Algebra.Order.BigOperators.Group.Finset
import Mathlib.Algebra.Order.Floor.Ring
import Mathlib.Data.Fintype.BigOperators
import Mathlib.Tactic.Linarith

/-!
Owns apportionment by largest remainder: quotas rounded down, and one more for those that were
rounded down hardest.

Contract: the shares have the sum of the quotas (`sum_share`), each is less than one from its quota
(`abs_share_sub_lt`), and a larger quota never gets a smaller share (`share_mono`).
-/

namespace Assaybank.Library

variable {ι K : Type} [Field K] [LinearOrder K] [IsStrictOrderedRing K] [FloorRing K]

/-- As many quotas are chosen as the remainders come to, and they have the largest ones. -/
structure LargestRemainder [Fintype ι] (quota : ι → K) (chosen : Finset ι) : Prop where
  count : (chosen.card : K) = ∑ i, Int.fract (quota i)
  largest : ∀ i ∈ chosen, ∀ j, j ∉ chosen → Int.fract (quota j) ≤ Int.fract (quota i)

variable [DecidableEq ι]

/-- A quota rounded down, and one more if it is chosen. -/
def share (quota : ι → K) (chosen : Finset ι) (i : ι) : Int :=
  ⌊quota i⌋ + if i ∈ chosen then 1 else 0

namespace LargestRemainder

variable [Fintype ι] {quota : ι → K} {chosen : Finset ι}

omit [IsStrictOrderedRing K] in
theorem sum_share (rounding : LargestRemainder quota chosen) :
    ((∑ i, share quota chosen i : Int) : K) = ∑ i, quota i := by
  have chosenCount : ∑ i, (if i ∈ chosen then (1 : K) else 0) = chosen.card := by
    rw [Finset.sum_boole, Finset.filter_mem_eq_inter, Finset.univ_inter]
  calc
    ((∑ i, share quota chosen i : Int) : K)
        = ∑ i, ((⌊quota i⌋ : K) + if i ∈ chosen then 1 else 0) := by
          rw [Int.cast_sum]
          apply Finset.sum_congr rfl
          intro i _
          unfold share
          push_cast
          rfl
    _ = ∑ i, (⌊quota i⌋ : K) + ∑ i, Int.fract (quota i) := by
          rw [Finset.sum_add_distrib, chosenCount, rounding.count]
    _ = ∑ i, quota i := by
          rw [← Finset.sum_add_distrib]
          exact Finset.sum_congr rfl fun i _ => Int.floor_add_fract (quota i)

omit [DecidableEq ι] in
/-- What is chosen was rounded down. -/
theorem fract_pos (rounding : LargestRemainder quota chosen) {i : ι} (inside : i ∈ chosen) :
    0 < Int.fract (quota i) := by
  by_contra notPositive
  have zero : Int.fract (quota i) = 0 :=
    le_antisymm (not_lt.mp notPositive) (Int.fract_nonneg _)
  -- nothing outside has a larger remainder, so all of the remainder is inside
  have outside : ∀ j, j ∉ chosen → Int.fract (quota j) = 0 := fun j absent =>
    le_antisymm ((rounding.largest i inside j absent).trans zero.le) (Int.fract_nonneg _)
  have total : ∑ j, Int.fract (quota j) = ∑ j ∈ chosen, Int.fract (quota j) :=
    (Finset.sum_subset (Finset.subset_univ chosen) fun j _ absent => outside j absent).symm
  have less : ∑ j ∈ chosen, Int.fract (quota j) < ∑ j ∈ chosen, (1 : K) := by
    apply Finset.sum_lt_sum
    · intro j _
      exact (Int.fract_lt_one _).le
    · exact ⟨i, inside, Int.fract_lt_one _⟩
  rw [← total, ← rounding.count, Finset.sum_const, nsmul_eq_mul, mul_one] at less
  exact lt_irrefl _ less

theorem abs_share_sub_lt (rounding : LargestRemainder quota chosen) (i : ι) :
    |(share quota chosen i : K) - quota i| < 1 := by
  have parts := Int.floor_add_fract (quota i)
  have below := Int.fract_lt_one (quota i)
  unfold share
  by_cases inside : i ∈ chosen
  · have above := rounding.fract_pos inside
    rw [if_pos inside, abs_lt]
    push_cast
    constructor
    · linarith
    · linarith
  · have above := Int.fract_nonneg (quota i)
    rw [if_neg inside, abs_lt]
    push_cast
    constructor
    · linarith
    · linarith

theorem share_mono (rounding : LargestRemainder quota chosen) {i j : ι}
    (smaller : quota i < quota j) : share quota chosen i ≤ share quota chosen j := by
  have floors : ⌊quota i⌋ ≤ ⌊quota j⌋ := Int.floor_mono smaller.le
  unfold share
  rcases floors.lt_or_eq with less | same
  · split
    · split
      · omega
      · omega
    · split
      · omega
      · omega
  · -- with one floor the larger quota has the larger remainder
    have remainders : Int.fract (quota i) < Int.fract (quota j) := by
      unfold Int.fract
      rw [same]
      linarith
    have follows : i ∈ chosen → j ∈ chosen := by
      intro inside
      by_contra absent
      exact absurd remainders (not_lt.mpr (rounding.largest i inside j absent))
    by_cases inside : i ∈ chosen
    · rw [if_pos inside, if_pos (follows inside), same]
    · rw [if_neg inside, same]
      split
      · omega
      · omega

omit [IsStrictOrderedRing K] [Fintype ι] in
theorem le_share (quota : ι → K) (chosen : Finset ι) (i : ι) : ⌊quota i⌋ ≤ share quota chosen i := by
  unfold share
  split
  · omega
  · omega

end LargestRemainder

end Assaybank.Library
