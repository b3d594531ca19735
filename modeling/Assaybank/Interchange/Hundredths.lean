import Assaybank.Interchange.Exact

/-!
Owns which accepted scores and weights the store writes as they are
(`packages/contracts/src/questions.ts`, `taxonomy.ts`, `apps/worker/src/interchange/bank-item.ts`,
`packages/db/src/questions.ts`).

Contract: the schemas take every number within the bounds that is about a hundred-millionth from a
hundredth, and the store writes the hundredth (`accepted_near_hundredth`). So a number is written
exactly or refused exactly when it is out of the bounds, has at most two decimals, or is farther
than the tolerance from every hundredth (`accepted_written_exactly_iff`).
-/

namespace Assaybank.Interchange

open Assaybank.Runtime Assaybank.Library Assaybank.Contracts Assaybank.Db

/-- A number of hundredths is one of at most two decimals. -/
theorem isHundredths_iff {d : Decimal} : IsHundredths d ↔ -2 ≤ d.exponent := by
  constructor
  · rintro ⟨hundredths, whole⟩
    by_contra longer
    obtain ⟨more, exponent⟩ := Int.eq_ofNat_of_zero_le (by omega : 0 ≤ -3 - d.exponent)
    have scaled : (d.mantissa : ℚ) = hundredths * 10 ^ (more + 1) := by
      have place : d.exponent = -((more + 1 : Nat) : ℤ) - 2 := by
        push_cast
        omega
      have power : (10 : ℚ) ^ d.exponent * 100 * 10 ^ (more + 1) = 1 := by
        rw [place, zpow_sub₀ (by norm_num), zpow_neg, zpow_natCast]
        field_simp
        norm_num
      calc
        (d.mantissa : ℚ) = d.mantissa * (10 ^ d.exponent * 100 * 10 ^ (more + 1)) := by
          rw [power, mul_one]
        _ = d.toRat * 100 * 10 ^ (more + 1) := by
          unfold Decimal.toRat
          ring
        _ = hundredths * 10 ^ (more + 1) := by rw [whole]
    have tenfold : d.mantissa = hundredths * 10 ^ more * 10 := by
      rw [mul_assoc, ← pow_succ]
      exact_mod_cast scaled
    rcases d.canonical with ⟨_, flat⟩ | odd
    · omega
    · omega
  · exact wholeHundredths

/-- The double a decimal is read as. -/
def readDecimal (value : Decimal) : ℚ := Binary64.nearest value.toRat

/-- A value `scoreValue` or a weight schema takes. No caller's least score is below the least of
the column. -/
def HundredthsAccepted (value : Decimal) : Prop :=
  (∃ least, MIN_SCORE_VALUE ≤ least ∧ (scoreValue least).Accepts value) ∨
    (Schema.number [minValue 0, maxValue MAX_WEIGHT_VALUE, twoDecimals]).Accepts value

/-- The bounds of a score column. -/
def InColumn (value : Decimal) : Prop := MIN_SCORE_VALUE ≤ value ∧ value ≤ MAX_SCORE_VALUE

section Column

variable {value : Decimal}

theorem InColumn.bounded (inside : InColumn value) : |value.toRat| ≤ 10 ^ 4 := by
  obtain ⟨low, high⟩ := inside
  rw [Decimal.le_iff_toRat, score_bounds.1] at low
  rw [Decimal.le_iff_toRat, score_bounds.2] at high
  rw [abs_le]
  constructor
  · linarith
  · linarith

theorem InColumn.bounded_read (inside : InColumn value) : |readDecimal value| ≤ 10 ^ 4 := by
  refine Binary64.abs_nearest_le ?_ inside.bounded
  exact_mod_cast Binary64.isDouble_natCast (n := 10 ^ 4) (by norm_num)

/-- What is accepted is what passes the test of the decimals within the bounds of a score. -/
theorem hundredthsAccepted_iff :
    HundredthsAccepted value ↔ InColumn value ∧ hasAtMostTwoDecimals value = true := by
  constructor
  · rintro (⟨least, column, score⟩ | weight)
    · obtain ⟨low, high, decimals⟩ := accepts_hundredths.mp score
      exact ⟨⟨Decimal.le_iff_toRat.mpr (Decimal.le_iff_toRat.mp column |>.trans low), high⟩, decimals⟩
    · obtain ⟨low, high, decimals⟩ := accepts_hundredths.mp weight
      have least : MIN_SCORE_VALUE ≤ 0 := by decide +kernel
      have most : MAX_WEIGHT_VALUE ≤ MAX_SCORE_VALUE := by decide +kernel
      rw [Decimal.le_iff_toRat] at low high least most
      exact ⟨⟨least.trans low, high.trans most⟩, decimals⟩
  · rintro ⟨⟨low, high⟩, decimals⟩
    exact .inl ⟨MIN_SCORE_VALUE, Decimal.le_iff_toRat.mpr le_rfl,
      accepts_hundredths.mpr ⟨low, high, decimals⟩⟩

/-- What is accepted lies within about a hundred-millionth of the hundredth that is written. -/
theorem accepted_near_hundredth (accepted : HundredthsAccepted value) :
    |readDecimal value - toFixed 2 (readDecimal value)| < 102 / 10 ^ 10 := by
  obtain ⟨inside, decimals⟩ := hundredthsAccepted_iff.mp accepted
  obtain ⟨n, near⟩ := (hasAtMostTwoDecimals_iff inside.bounded).mp decimals
  have scaled := scaled_near inside.bounded
  have close : |readDecimal value * 100 - n| < 102 / 10 ^ 8 := by
    calc
      |readDecimal value * 100 - n| ≤
          |readDecimal value * 100 - Binary64.nearest (readDecimal value * 100)| +
            |Binary64.nearest (readDecimal value * 100) - n| := abs_sub_le _ _ _
      _ < 1 / 10 ^ 10 + 101 / 10 ^ 8 := by
        rw [abs_sub_comm]
        exact add_lt_add_of_le_of_lt scaled (near.trans tolerance_bounds.2)
      _ < 102 / 10 ^ 8 := by norm_num
  rw [toFixed_two_of_near (inside.bounded_read.trans_lt (by norm_num))
    (close.trans (by norm_num))]
  have split : readDecimal value - n / 100 = (readDecimal value * 100 - n) / 100 := by ring
  rw [split, abs_div, abs_of_pos (by norm_num : (0 : ℚ) < 100), div_lt_iff₀ (by norm_num)]
  linarith

/-- Within the bounds a hundredth is accepted and written as it is. -/
theorem hundredth_accepted {n : ℤ} (inside : InColumn value) (whole : value.toRat * 100 = n) :
    HundredthsAccepted value ∧
      Binary64.nearest (toFixed 2 (readDecimal value)) = readDecimal value := by
  refine ⟨hundredthsAccepted_iff.mpr
    ⟨inside, hasAtMostTwoDecimals_hundredths whole inside.bounded⟩, ?_⟩
  refine (nearest_toFixed_two_iff inside.bounded_read).mpr ⟨n, ?_⟩
  rw [readDecimal, ← whole, mul_div_cancel_right₀ _ (by norm_num)]

end Column

section Written

variable {value : Decimal}

/-- What the bounds leave of an implication from acceptance to a property of hundredths. -/
private theorem accepted_imp_iff {written hundredth : Prop}
    (same : InColumn value → (written ↔ hundredth)) :
    (HundredthsAccepted value → written) ↔
      ¬ InColumn value ∨ hundredth ∨
        ∀ n : ℤ, DECIMALS_TOLERANCE ≤ |Binary64.nearest (readDecimal value * 100) - n| := by
  rw [hundredthsAccepted_iff]
  by_cases inside : InColumn value
  · rw [hasAtMostTwoDecimals_iff inside.bounded, same inside]
    constructor
    · intro exact
      by_cases near : ∃ n : ℤ, |Binary64.nearest (readDecimal value * 100) - n| < DECIMALS_TOLERANCE
      · exact .inr (.inl (exact ⟨inside, near⟩))
      · exact .inr (.inr fun n => not_lt.mp fun less => near ⟨n, less⟩)
    · rintro (outside | hundredth | far)
      · exact absurd inside outside
      · exact fun _ => hundredth
      · rintro ⟨_, n, near⟩
        exact absurd near (not_lt.mpr (far n))
  · exact iff_of_true (fun accepted => absurd accepted.1 inside) (.inl inside)

theorem toFixed_two_eq_self_iff (small : |value.toRat| < 10 ^ 21) :
    toFixed 2 value.toRat = value.toRat ↔ -2 ≤ value.exponent := by
  rw [← isHundredths_iff]
  constructor
  · intro same
    obtain ⟨n, hundredth⟩ := toFixed_two_hundredth small
    exact ⟨n, by rw [← same, hundredth, div_mul_cancel₀ _ (by norm_num)]⟩
  · rintro ⟨n, whole⟩
    have near : |value.toRat * 100 - n| < 1 / 2 := by
      rw [whole, sub_self, abs_zero]
      norm_num
    rw [toFixed_two_of_near small near, ← whole, mul_div_cancel_right₀ _ (by norm_num)]

end Written

/-- The store writes what the schemas accept as the same number exactly when the number is out of
the bounds, has at most two decimals, or its product by a hundred is at least the tolerance away
from every whole number. The number is the rational its decimal denotes; for the double it is read
as, which the store's text is read back as, the condition is to be the nearest to a hundredth. -/
theorem accepted_written_exactly_iff (value : Decimal) :
    ((HundredthsAccepted value → toFixed 2 value.toRat = value.toRat) ↔
      ¬ InColumn value ∨ -2 ≤ value.exponent ∨
        ∀ n : ℤ, DECIMALS_TOLERANCE ≤ |Binary64.nearest (readDecimal value * 100) - n|) ∧
    ((HundredthsAccepted value →
        Binary64.nearest (toFixed 2 (readDecimal value)) = readDecimal value) ↔
      ¬ InColumn value ∨ (∃ n : ℤ, readDecimal value = Binary64.nearest (n / 100)) ∨
        ∀ n : ℤ, DECIMALS_TOLERANCE ≤ |Binary64.nearest (readDecimal value * 100) - n|) :=
  ⟨accepted_imp_iff fun inside =>
      toFixed_two_eq_self_iff (inside.bounded.trans_lt (by norm_num)),
    accepted_imp_iff fun inside => nearest_toFixed_two_iff inside.bounded_read⟩

/-- `1.000000001` is accepted, written as `1.00`, and another number is read back. -/
theorem accepted_rounded :
    (¬ ∀ value : Decimal, HundredthsAccepted value → toFixed 2 value.toRat = value.toRat) ∧
      ¬ ∀ value : Decimal, HundredthsAccepted value →
        Binary64.nearest (toFixed 2 (readDecimal value)) = readDecimal value := by
  have accepted : HundredthsAccepted ⟨1000000001, -9, by decide⟩ :=
    .inl ⟨0, by decide +kernel,
      accepts_hundredths.mpr ⟨by decide +kernel, by decide +kernel, by decide +kernel⟩⟩
  refine ⟨fun law => ?_, fun law => ?_⟩
  · have same := law _ accepted
    revert same
    decide +kernel
  · have same := law _ accepted
    revert same
    decide +kernel

end Assaybank.Interchange
