import Mathlib.Data.Rat.Floor
import Mathlib.Algebra.Order.Round
import Mathlib.Tactic.Ring
import Mathlib.Tactic.NormNum

/-!
Owns the finite numbers every record of the repository carries.

A number is read as the shortest decimal that denotes it, the one `String` prints and
JSON stores: a mantissa without trailing zeros and a power of ten. Comparison and
arithmetic are those of the rational it denotes. There is one zero, and neither infinities
nor NaN, which JSON cannot carry and no schema here admits.
-/

namespace Assaybank.Runtime

structure Decimal where
  mantissa : Int
  exponent : Int
  canonical : (mantissa = 0 ∧ exponent = 0) ∨ mantissa % 10 ≠ 0
deriving DecidableEq

namespace Decimal

/-- The rational a decimal denotes. -/
def toRat (d : Decimal) : ℚ := d.mantissa * (10 : ℚ) ^ d.exponent

/-- The decimal `mantissa * 10 ^ exponent`, with the trailing zeros moved to the exponent. -/
def ofScaled (mantissa exponent : Int) : Decimal :=
  if zero : mantissa = 0 then ⟨0, 0, .inl ⟨rfl, rfl⟩⟩
  else if trailing : mantissa % 10 = 0 then ofScaled (mantissa / 10) (exponent + 1)
  else ⟨mantissa, exponent, .inr trailing⟩
termination_by mantissa.natAbs
decreasing_by omega

def ofInt (n : Int) : Decimal := ofScaled n 0

/-- The integer a decimal denotes, if it denotes one. -/
def toInt? (d : Decimal) : Option Int :=
  if 0 ≤ d.exponent then some (d.mantissa * 10 ^ d.exponent.toNat) else none

instance : LE Decimal := ⟨fun left right => left.toRat ≤ right.toRat⟩

instance (left right : Decimal) : Decidable (left ≤ right) :=
  inferInstanceAs (Decidable (left.toRat ≤ right.toRat))

instance : OfNat Decimal n := ⟨ofInt n⟩

theorem le_iff_toRat {left right : Decimal} : left ≤ right ↔ left.toRat ≤ right.toRat := Iff.rfl

theorem toRat_ofScaled (mantissa exponent : Int) :
    (ofScaled mantissa exponent).toRat = mantissa * (10 : ℚ) ^ exponent := by
  fun_induction ofScaled mantissa exponent with
  | case1 exponent => simp [toRat]
  | case2 mantissa exponent nonzero trailing inductionHypothesis =>
      have whole : mantissa = mantissa / 10 * 10 := by omega
      calc
        (ofScaled (mantissa / 10) (exponent + 1)).toRat
            = ((mantissa / 10 : Int) : ℚ) * (10 : ℚ) ^ (exponent + 1) := inductionHypothesis
        _ = ((mantissa / 10 * 10 : Int) : ℚ) * (10 : ℚ) ^ exponent := by
          rw [zpow_add_one₀ (by norm_num)]
          push_cast
          ring
        _ = mantissa * (10 : ℚ) ^ exponent := by rw [← whole]
  | case3 => rfl

@[simp] theorem toRat_ofInt (n : Int) : (ofInt n).toRat = n := by
  simp [ofInt, toRat_ofScaled]

/-- Zeros moved to the mantissa are moved back. -/
theorem ofScaled_shifted {d : Decimal} (nonzero : d.mantissa ≠ 0) (zeros : Nat) :
    ofScaled (d.mantissa * 10 ^ zeros) (d.exponent - zeros) = d := by
  have odd : d.mantissa % 10 ≠ 0 := by
    rcases d.canonical with ⟨zero, _⟩ | odd
    · exact absurd zero nonzero
    · exact odd
  induction zeros with
  | zero =>
      rw [pow_zero, Int.mul_one, Int.natCast_zero, Int.sub_zero, ofScaled, dif_neg nonzero,
        dif_neg odd]
  | succ zeros inductionHypothesis =>
      have positive : d.mantissa * 10 ^ zeros ≠ 0 := mul_ne_zero nonzero (by positivity)
      have tenfold : d.mantissa * 10 ^ (zeros + 1) = d.mantissa * 10 ^ zeros * 10 := by ring
      rw [ofScaled, tenfold, dif_neg (by omega), dif_pos (by omega)]
      have quotient : d.mantissa * 10 ^ zeros * 10 / 10 = d.mantissa * 10 ^ zeros := by omega
      have exponent : d.exponent - (zeros + 1 : Nat) + 1 = d.exponent - zeros := by
        push_cast
        ring
      rw [quotient, exponent, inductionHypothesis]

/-- Two decimals that denote one number have the same digits, once the longer exponent is brought
down. -/
private theorem eq_of_toRat_eq {left right : Decimal} (same : left.toRat = right.toRat)
    (ordered : left.exponent ≤ right.exponent) : left = right := by
  obtain ⟨zeros, gap⟩ := Int.le.dest ordered
  have digits : left.mantissa = right.mantissa * 10 ^ zeros := by
    have scaled : (left.mantissa : ℚ) * 10 ^ left.exponent =
        right.mantissa * 10 ^ zeros * 10 ^ left.exponent := by
      calc
        (left.mantissa : ℚ) * 10 ^ left.exponent = right.mantissa * 10 ^ right.exponent := same
        _ = right.mantissa * 10 ^ (left.exponent + zeros) := by rw [gap]
        _ = right.mantissa * 10 ^ zeros * 10 ^ left.exponent := by
          rw [zpow_add₀ (by norm_num), zpow_natCast]
          ring
    exact_mod_cast mul_right_cancel₀ (zpow_ne_zero _ (by norm_num)) scaled
  by_cases zero : right.mantissa = 0
  · have alsoZero : left.mantissa = 0 := by rw [digits, zero, zero_mul]
    have first : left.exponent = 0 := by
      rcases left.canonical with ⟨_, flat⟩ | odd
      · exact flat
      · exact absurd (by rw [alsoZero]; rfl) odd
    have second : right.exponent = 0 := by
      rcases right.canonical with ⟨_, flat⟩ | odd
      · exact flat
      · exact absurd (by rw [zero]; rfl) odd
    cases left
    cases right
    simp_all
  · have nonzero : left.mantissa ≠ 0 := by
      rw [digits]
      exact mul_ne_zero zero (by positivity)
    have down := ofScaled_shifted zero zeros
    have still := ofScaled_shifted nonzero 0
    rw [pow_zero, Int.mul_one, Int.natCast_zero, Int.sub_zero] at still
    rw [← still, ← down, digits]
    congr 1
    omega

theorem toRat_injective : Function.Injective toRat := by
  intro left right same
  rcases le_total left.exponent right.exponent with ordered | ordered
  · exact eq_of_toRat_eq same ordered
  · exact (eq_of_toRat_eq same.symm ordered).symm

private theorem toInt?_ofScaled (mantissa exponent : Int) (nonneg : 0 ≤ exponent) :
    (ofScaled mantissa exponent).toInt? = some (mantissa * 10 ^ exponent.toNat) := by
  fun_induction ofScaled mantissa exponent with
  | case1 exponent => simp [toInt?]
  | case2 mantissa exponent nonzero trailing inductionHypothesis =>
      have whole : mantissa = mantissa / 10 * 10 := by omega
      rw [inductionHypothesis (by omega)]
      have power : (exponent + 1).toNat = exponent.toNat + 1 := by omega
      rw [power, pow_succ]
      congr 1
      calc
        mantissa / 10 * (10 ^ exponent.toNat * 10)
            = mantissa / 10 * 10 * 10 ^ exponent.toNat := by ring
        _ = mantissa * 10 ^ exponent.toNat := by rw [← whole]
  | case3 => simp [toInt?, nonneg]

@[simp] theorem toInt?_ofInt (n : Int) : (ofInt n).toInt? = some n := by
  simp [ofInt, toInt?_ofScaled]

end Decimal

end Assaybank.Runtime
