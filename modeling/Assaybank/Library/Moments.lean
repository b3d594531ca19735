import Mathlib.Algebra.BigOperators.Fin
import Mathlib.Algebra.Order.BigOperators.Ring.Finset
import Mathlib.Algebra.Order.BigOperators.Group.List
import Mathlib.Algebra.Order.Field.Basic
import Mathlib.Tactic.Ring

/-!
Owns the moments of a finite sample, in any ordered field: mean, variance, and the covariation of
two measures of one sample.

Contract: no moment depends on the order of the sample, and the square of the covariation is at most
the product of the two spreads (`covariation_sq_le`).
-/

namespace Assaybank.Library

variable {α K : Type} [Field K]

def mean (xs : List K) : K := xs.sum / xs.length

/-- The sum of the squared deviations from the mean. -/
def spread (xs : List K) : K := (xs.map fun x => (x - mean xs) * (x - mean xs)).sum

def variance (xs : List K) : K := spread xs / xs.length

/-- The sum of the products of the deviations of two measures. -/
def covariation (f g : α → K) (sample : List α) : K :=
  (sample.map fun one => (f one - mean (sample.map f)) * (g one - mean (sample.map g))).sum

theorem mean_perm {xs ys : List K} (reordered : xs.Perm ys) : mean xs = mean ys := by
  rw [mean, mean, reordered.sum_eq, reordered.length_eq]

theorem spread_perm {xs ys : List K} (reordered : xs.Perm ys) : spread xs = spread ys := by
  rw [spread, spread, mean_perm reordered]
  exact (reordered.map _).sum_eq

theorem variance_perm {xs ys : List K} (reordered : xs.Perm ys) : variance xs = variance ys := by
  rw [variance, variance, spread_perm reordered, reordered.length_eq]

section Ordered

variable [LinearOrder K] [IsStrictOrderedRing K]

theorem spread_nonneg (xs : List K) : 0 ≤ spread xs := by
  apply List.sum_nonneg
  intro square inside
  obtain ⟨x, _, rfl⟩ := List.mem_map.mp inside
  exact mul_self_nonneg _

theorem variance_eq_zero_iff_spread {xs : List K} : variance xs = 0 ↔ spread xs = 0 := by
  rw [variance, div_eq_zero_iff]
  constructor
  · rintro (flat | empty)
    · exact flat
    · rw [Nat.cast_eq_zero, List.length_eq_zero_iff] at empty
      rw [empty]
      rfl
  · exact .inl

/-- The inequality of Cauchy and Schwarz for two measures of a sample. -/
theorem sum_mul_sq_le (f g : α → K) (sample : List α) :
    (sample.map fun one => f one * g one).sum ^ 2 ≤
      (sample.map fun one => f one * f one).sum * (sample.map fun one => g one * g one).sum := by
  have bound := Finset.sum_mul_sq_le_sq_mul_sq Finset.univ
    (fun i : Fin sample.length => f sample[i.1]) (fun i => g sample[i.1])
  simp only [pow_two (f _), pow_two (g _)] at bound
  rw [Fin.sum_univ_fun_getElem sample (fun one => f one * g one),
    Fin.sum_univ_fun_getElem sample (fun one => f one * f one),
    Fin.sum_univ_fun_getElem sample (fun one => g one * g one)] at bound
  exact bound

theorem covariation_sq_le (f g : α → K) (sample : List α) :
    covariation f g sample ^ 2 ≤ spread (sample.map f) * spread (sample.map g) := by
  have bound := sum_mul_sq_le (fun one => f one - mean (sample.map f))
    (fun one => g one - mean (sample.map g)) sample
  rw [spread, spread, List.map_map, List.map_map]
  exact bound

/-- The mean of a sample lies between bounds of the sample. -/
theorem mean_between {xs : List K} {low high : K} (filled : xs ≠ [])
    (between : ∀ x ∈ xs, low ≤ x ∧ x ≤ high) : low ≤ mean xs ∧ mean xs ≤ high := by
  have count : (0 : K) < xs.length := Nat.cast_pos.mpr (List.length_pos_iff.mpr filled)
  have least := List.card_nsmul_le_sum xs low (fun x inside => (between x inside).1)
  have most := List.sum_le_card_nsmul xs high (fun x inside => (between x inside).2)
  rw [nsmul_eq_mul, mul_comm] at least most
  exact ⟨(le_div_iff₀ count).mpr least, (div_le_iff₀ count).mpr most⟩

end Ordered

end Assaybank.Library
