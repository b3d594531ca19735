import Mathlib.Algebra.Order.Field.Power
import Mathlib.Algebra.Order.Round
import Mathlib.Data.Int.Log
import Mathlib.Data.Rat.Floor
import Mathlib.Tactic.Linarith
import Mathlib.Tactic.NormNum
import Mathlib.Tactic.Positivity
import Mathlib.Tactic.Ring

/-!
Owns the numbers of the format binary64 and the rounding of a rational to the nearest of them, with
an even last digit where two are as near.

Contract: the nearest number is a number of the format (`isDouble_nearest`) and no number of the
format is nearer (`nearest_best`). So a number of the format is its own nearest (`nearest_eq_self`),
and rounding keeps order (`nearest_mono`) and is odd (`nearest_neg`).

The exponent has no upper bound here; a number of at least `overflow` is for the user to refuse.
-/

namespace Assaybank.Library.Binary64

/-- A number of the format: a significand of at most 53 bits times a power of two. -/
def IsDouble (x : ℚ) : Prop := ∃ significand place : ℤ,
  |significand| ≤ 2 ^ 53 ∧ -1074 ≤ place ∧ x = significand * 2 ^ place

/-- The nearest whole number, an even one where two are as near. -/
def roundEven (x : ℚ) : ℤ :=
  let below := ⌊x⌋
  let rest := x - below
  if rest < 1 / 2 ∨ rest = 1 / 2 ∧ below % 2 = 0 then below else below + 1

/-- The exponent of the last digit the format has for a number of this magnitude. -/
def place (x : ℚ) : ℤ := max (Int.log 2 |x| - 52) (-1074)

/-- The value of a last digit. -/
def unit (x : ℚ) : ℚ := 2 ^ place x

/-- The number of the format nearest to `x`. -/
def nearest (x : ℚ) : ℚ := roundEven (x / unit x) * unit x

/-- The magnitude from which on a rounded number is too large for the format. -/
def overflow : ℚ := 2 ^ 1024

/-! ### Whole numbers -/

theorem roundEven_near (x : ℚ) : |roundEven x - x| ≤ 1 / 2 := by
  have low := Int.floor_le x
  have high := Int.lt_floor_add_one x
  unfold roundEven
  dsimp only
  split
  · rename_i below
    rw [abs_sub_comm, abs_of_nonneg (sub_nonneg.mpr low)]
    rcases below with less | ⟨half, _⟩
    · exact less.le
    · exact half.le
  · rename_i above
    have more : 1 / 2 ≤ x - ⌊x⌋ := not_lt.mp fun less => above (.inl less)
    push_cast
    rw [abs_of_nonneg (by linarith)]
    linarith

@[simp] theorem roundEven_intCast (n : ℤ) : roundEven n = n := by
  unfold roundEven
  dsimp only
  rw [Int.floor_intCast, sub_self, if_pos (.inl (by norm_num))]

/-- No whole number is nearer. -/
theorem roundEven_best (x : ℚ) (n : ℤ) : |roundEven x - x| ≤ |n - x| := by
  by_contra nearer
  have less : |(n : ℚ) - x| < 1 / 2 := (not_le.mp nearer).trans_le (roundEven_near x)
  have apart : |((roundEven x : ℤ) : ℚ) - n| < 1 := by
    calc
      |((roundEven x : ℤ) : ℚ) - n| = |(roundEven x - x) - (n - x)| := by ring_nf
      _ ≤ |roundEven x - x| + |n - x| := abs_sub _ _
      _ < 1 := by linarith [roundEven_near x]
  have same : roundEven x = n := by
    rw [← sub_eq_zero, ← Int.abs_lt_one_iff]
    exact_mod_cast apart
  rw [same] at nearer
  exact nearer le_rfl

private theorem roundEven_of_lt {x : ℚ} (less : x - ⌊x⌋ < 1 / 2) : roundEven x = ⌊x⌋ :=
  if_pos (.inl less)

private theorem roundEven_of_gt {x : ℚ} (more : 1 / 2 < x - ⌊x⌋) : roundEven x = ⌊x⌋ + 1 := by
  refine if_neg ?_
  rintro (less | ⟨half, _⟩)
  · linarith
  · linarith

private theorem roundEven_of_half {x : ℚ} (half : x - ⌊x⌋ = 1 / 2) :
    roundEven x = if ⌊x⌋ % 2 = 0 then ⌊x⌋ else ⌊x⌋ + 1 := by
  unfold roundEven
  simp only [half, lt_irrefl, false_or, true_and]

private theorem roundEven_add_half {n : ℤ} (even : n % 2 = 0) : roundEven (n + 1 / 2) = n := by
  have floor : ⌊(n : ℚ) + 1 / 2⌋ = n := by
    rw [Int.floor_eq_iff]
    constructor
    · linarith
    · linarith
  rw [roundEven_of_half (by rw [floor]; ring), floor, if_pos even]

theorem roundEven_neg (x : ℚ) : roundEven (-x) = -roundEven x := by
  by_cases whole : (⌊x⌋ : ℚ) = x
  · rw [← whole, ← Int.cast_neg, roundEven_intCast, roundEven_intCast]
  · have low : (⌊x⌋ : ℚ) < x := lt_of_le_of_ne (Int.floor_le x) whole
    have high := Int.lt_floor_add_one x
    have opposite : ⌊-x⌋ = -⌊x⌋ - 1 := by
      rw [Int.floor_eq_iff]
      push_cast
      constructor
      · linarith
      · linarith
    have rest : -x - (⌊-x⌋ : ℚ) = 1 - (x - ⌊x⌋) := by
      rw [opposite]
      push_cast
      ring
    rcases lt_trichotomy (x - ⌊x⌋) (1 / 2) with less | half | more
    · rw [roundEven_of_lt less, roundEven_of_gt (by rw [rest]; linarith), opposite]
      ring
    · rw [roundEven_of_half half, roundEven_of_half (by rw [rest, half]; norm_num), opposite]
      split
      · rw [if_neg (by omega)]
        omega
      · rw [if_pos (by omega)]
        omega
    · rw [roundEven_of_gt more, roundEven_of_lt (by rw [rest]; linarith), opposite]
      ring

theorem roundEven_le {x : ℚ} {n : ℤ} (below : x ≤ n) : roundEven x ≤ n := by
  have nearer := roundEven_best x n
  rw [abs_of_nonneg (sub_nonneg.mpr below)] at nearer
  by_contra above
  have beyond : (n : ℚ) + 1 ≤ roundEven x := by exact_mod_cast not_le.mp above
  have far := (le_abs_self _).trans nearer
  have half := (le_abs_self _).trans (roundEven_near x)
  linarith

theorem le_roundEven {x : ℚ} {n : ℤ} (above : (n : ℚ) ≤ x) : n ≤ roundEven x := by
  have opposite : -x ≤ ((-n : ℤ) : ℚ) := by
    push_cast
    linarith
  have mirrored := roundEven_le opposite
  rw [roundEven_neg] at mirrored
  omega

/-! ### The format -/

theorem unit_pos (x : ℚ) : 0 < unit x := zpow_pos (by norm_num) _

theorem unit_neg (x : ℚ) : unit (-x) = unit x := by rw [unit, unit, place, place, abs_neg]

/-- Above the least exponent the last digit is the one that 53 digits reach. -/
private theorem binade_le {x : ℚ} (nonzero : x ≠ 0) (normal : -1074 < place x) :
    (2 : ℚ) ^ (place x + 52) ≤ |x| := by
  have exponent : place x = Int.log 2 |x| - 52 := by
    unfold place at normal ⊢
    omega
  rw [exponent, sub_add_cancel]
  exact Int.zpow_log_le_self (by norm_num) (abs_pos.mpr nonzero)

theorem lt_binade (x : ℚ) : |x| < 2 ^ (place x + 53) := by
  have above := Int.lt_zpow_succ_log_self (b := 2) (by norm_num) |x|
  refine above.trans_le ?_
  push_cast
  refine zpow_le_zpow_right₀ (by norm_num) ?_
  unfold place
  omega

theorem isDouble_zero : IsDouble 0 := ⟨0, 0, by norm_num, by norm_num, by norm_num⟩

theorem IsDouble.neg {x : ℚ} (double : IsDouble x) : IsDouble (-x) := by
  obtain ⟨significand, exponent, bound, low, rfl⟩ := double
  exact ⟨-significand, exponent, by rwa [abs_neg], low, by push_cast; ring⟩

theorem isDouble_intCast {n : ℤ} (small : |n| ≤ 2 ^ 53) : IsDouble n :=
  ⟨n, 0, small, by norm_num, by norm_num⟩

theorem isDouble_zpow {exponent : ℤ} (low : -1074 ≤ exponent) : IsDouble (2 ^ exponent) :=
  ⟨1, exponent, by norm_num, low, by norm_num⟩

theorem isDouble_nearest (x : ℚ) : IsDouble (nearest x) := by
  refine ⟨roundEven (x / unit x), place x, ?_, le_max_right _ _, rfl⟩
  have scaled : |x / unit x| ≤ 2 ^ 53 := by
    rw [abs_div, abs_of_pos (unit_pos x), div_le_iff₀ (unit_pos x), unit]
    calc
      |x| ≤ 2 ^ (place x + 53) := (lt_binade x).le
      _ = 2 ^ 53 * 2 ^ place x := by
        rw [zpow_add₀ (by norm_num), mul_comm]
        norm_num
  obtain ⟨low, high⟩ := abs_le.mp scaled
  rw [abs_le]
  exact ⟨le_roundEven (by push_cast; exact low), roundEven_le (by push_cast; exact high)⟩

theorem nearest_zero : nearest 0 = 0 := by
  rw [nearest, zero_div, ← Int.cast_zero, roundEven_intCast, Int.cast_zero, zero_mul]

/-- Half a last digit is as far as a number is moved. -/
theorem nearest_near (x : ℚ) : |nearest x - x| ≤ unit x / 2 := by
  have scale := unit_pos x
  have split : nearest x - x = (roundEven (x / unit x) - x / unit x) * unit x := by
    rw [nearest, sub_mul, div_mul_cancel₀ _ scale.ne']
  rw [split, abs_mul, abs_of_pos scale]
  calc
    |(roundEven (x / unit x) : ℚ) - x / unit x| * unit x ≤ 1 / 2 * unit x :=
      mul_le_mul_of_nonneg_right (roundEven_near _) scale.le
    _ = unit x / 2 := by ring

/-- No whole number of last digits is nearer. -/
private theorem nearest_best_grid (x : ℚ) (n : ℤ) : |nearest x - x| ≤ |n * unit x - x| := by
  have scale := unit_pos x
  have split : ∀ m : ℤ, m * unit x - x = (m - x / unit x) * unit x := fun m => by
    rw [sub_mul, div_mul_cancel₀ _ scale.ne']
  rw [nearest, split, split, abs_mul, abs_mul]
  exact mul_le_mul_of_nonneg_right (roundEven_best _ n) (abs_nonneg _)

/-- A number of a larger exponent is a whole number of last digits. -/
private theorem on_grid (significand : ℤ) {exponent place : ℤ} (coarse : place ≤ exponent) :
    ∃ n : ℤ, (significand : ℚ) * 2 ^ exponent = n * 2 ^ place := by
  obtain ⟨more, rfl⟩ := Int.le.dest coarse
  refine ⟨significand * 2 ^ more, ?_⟩
  rw [zpow_add₀ (by norm_num), zpow_natCast]
  push_cast
  ring

/-- A number of a smaller exponent does not reach past the least of the binade. -/
private theorem fine_le (significand : ℤ) {exponent place : ℤ} (bound : |significand| ≤ 2 ^ 53)
    (fine : exponent < place) : (significand : ℚ) * 2 ^ exponent ≤ 2 ^ (place + 52) := by
  have magnitude : (significand : ℚ) ≤ 2 ^ 53 := by
    exact_mod_cast (le_abs_self _).trans bound
  calc
    (significand : ℚ) * 2 ^ exponent ≤ 2 ^ 53 * 2 ^ exponent :=
      mul_le_mul_of_nonneg_right magnitude (by positivity)
    _ ≤ 2 ^ 53 * 2 ^ (place - 1) :=
      mul_le_mul_of_nonneg_left (zpow_le_zpow_right₀ (by norm_num) (by omega)) (by positivity)
    _ = 2 ^ (place + 52) := by
      rw [← zpow_natCast, ← zpow_add₀ (by norm_num)]
      congr 1
      push_cast
      ring

/-- No number of the format is nearer. -/
theorem nearest_best (x : ℚ) {d : ℚ} (double : IsDouble d) : |nearest x - x| ≤ |d - x| := by
  by_cases nonzero : x = 0
  · rw [nonzero, nearest_zero, sub_self, abs_zero]
    exact abs_nonneg _
  obtain ⟨significand, exponent, bound, low, rfl⟩ := double
  by_cases coarse : place x ≤ exponent
  · obtain ⟨n, same⟩ := on_grid significand coarse
    rw [same]
    exact nearest_best_grid x n
  · -- A finer number is no farther from zero than the least number of the binade of `x`.
    have normal : -1074 < place x := by omega
    have most := fine_le significand bound (not_le.mp coarse)
    have least := fine_le (-significand) (by rwa [abs_neg]) (not_le.mp coarse)
    push_cast at least
    rw [neg_mul] at least
    have binade := binade_le nonzero normal
    have edge : (2 : ℚ) ^ (place x + 52) = 2 ^ 52 * unit x := by
      rw [unit, zpow_add₀ (by norm_num), mul_comm]
      norm_num
    rcases le_total 0 x with positive | negative
    · rw [abs_of_nonneg positive] at binade
      have nearer := nearest_best_grid x (2 ^ 52)
      rw [show (((2 ^ 52 : ℤ)) : ℚ) = 2 ^ 52 by norm_num, ← edge,
        abs_of_nonpos (by linarith : (2 : ℚ) ^ (place x + 52) - x ≤ 0)] at nearer
      rw [abs_of_nonpos (by linarith : (significand : ℚ) * 2 ^ exponent - x ≤ 0)]
      linarith
    · rw [abs_of_nonpos negative] at binade
      have nearer := nearest_best_grid x (-2 ^ 52)
      rw [show (((-2 ^ 52 : ℤ)) : ℚ) = -2 ^ 52 by norm_num, neg_mul, ← edge,
        abs_of_nonneg (by linarith : 0 ≤ -(2 : ℚ) ^ (place x + 52) - x)] at nearer
      rw [abs_of_nonneg (by linarith : 0 ≤ (significand : ℚ) * 2 ^ exponent - x)]
      linarith

theorem nearest_eq_self {x : ℚ} (double : IsDouble x) : nearest x = x := by
  have exact := nearest_best x double
  rw [sub_self, abs_zero] at exact
  exact sub_eq_zero.mp (abs_nonpos_iff.mp exact)

theorem nearest_neg (x : ℚ) : nearest (-x) = -nearest x := by
  rw [nearest, nearest, unit_neg, neg_div, roundEven_neg]
  push_cast
  ring

/-- Of two numbers the lesser is not rounded past the greater. -/
theorem nearest_mono : Monotone nearest := by
  intro left right ordered
  rcases ordered.eq_or_lt with same | less
  · rw [same]
  · by_contra crossed
    have down := nearest_best left (isDouble_nearest right)
    have up := nearest_best right (isDouble_nearest left)
    have apart := not_le.mp crossed
    rcases abs_cases (nearest left - left) with ⟨first, _⟩ | ⟨first, _⟩ <;>
      rcases abs_cases (nearest right - left) with ⟨second, _⟩ | ⟨second, _⟩ <;>
      rcases abs_cases (nearest right - right) with ⟨third, _⟩ | ⟨third, _⟩ <;>
      rcases abs_cases (nearest left - right) with ⟨fourth, _⟩ | ⟨fourth, _⟩ <;>
      linarith

theorem nearest_le {x d : ℚ} (double : IsDouble d) (below : x ≤ d) : nearest x ≤ d :=
  (nearest_mono below).trans_eq (nearest_eq_self double)

theorem le_nearest {x d : ℚ} (double : IsDouble d) (above : d ≤ x) : d ≤ nearest x :=
  (nearest_eq_self double).symm.trans_le (nearest_mono above)

theorem abs_nearest_le {x d : ℚ} (double : IsDouble d) (bounded : |x| ≤ d) : |nearest x| ≤ d := by
  obtain ⟨low, high⟩ := abs_le.mp bounded
  exact abs_le.mpr ⟨le_nearest double.neg low, nearest_le double high⟩

theorem unit_le {x : ℚ} {least : ℤ} (low : -52 ≤ least) (below : |x| < 2 ^ (least + 53)) :
    unit x ≤ 2 ^ least := by
  refine zpow_le_zpow_right₀ (by norm_num) (max_le ?_ (by omega))
  rcases eq_or_ne x 0 with zero | nonzero
  · rw [zero, abs_zero, Int.log_zero_right]
    omega
  · have logs : Int.log 2 |x| < least + 53 := by
      rw [← Int.lt_zpow_iff_log_lt (by norm_num) (abs_pos.mpr nonzero)]
      exact_mod_cast below
    omega

/-- A last digit is a share of the number, or of one. -/
theorem unit_le_share (x : ℚ) : unit x ≤ 2 ^ (-52 : ℤ) * max 1 |x| := by
  rcases le_or_gt (place x) (-52) with small | large
  · calc
      unit x ≤ 2 ^ (-52 : ℤ) := zpow_le_zpow_right₀ (by norm_num) small
      _ ≤ 2 ^ (-52 : ℤ) * max 1 |x| := le_mul_of_one_le_right (by positivity) (le_max_left _ _)
  · have nonzero : x ≠ 0 := by
      rintro rfl
      simp [place] at large
    calc
      unit x = 2 ^ (-52 : ℤ) * 2 ^ (place x + 52) := by
        rw [unit, ← zpow_add₀ (by norm_num)]
        congr 1
        ring
      _ ≤ 2 ^ (-52 : ℤ) * max 1 |x| :=
        mul_le_mul_of_nonneg_left
          ((binade_le nonzero (by omega)).trans (le_max_right _ _)) (by positivity)

theorem nearest_near_share (x : ℚ) : |nearest x - x| ≤ 2 ^ (-53 : ℤ) * max 1 |x| := by
  have half : (2 : ℚ) ^ (-53 : ℤ) = 2 ^ (-52 : ℤ) / 2 := by norm_num
  calc
    |nearest x - x| ≤ unit x / 2 := nearest_near x
    _ ≤ 2 ^ (-52 : ℤ) * max 1 |x| / 2 := div_le_div_of_nonneg_right (unit_le_share x) (by norm_num)
    _ = 2 ^ (-53 : ℤ) * max 1 |x| := by rw [half, div_mul_eq_mul_div]

/-- The difference from a whole number half away at most is not rounded. -/
theorem isDouble_sub_intCast {x : ℚ} {n : ℤ} (double : IsDouble x) (near : |x - n| ≤ 1 / 2) :
    IsDouble (x - n) := by
  obtain ⟨significand, exponent, bound, low, rfl⟩ := double
  have magnitude : |(significand : ℚ)| ≤ 2 ^ 53 := by exact_mod_cast bound
  by_cases fine : exponent < -54
  · -- So small a number is nearest to zero, and is the difference itself.
    have small : |(significand : ℚ) * 2 ^ exponent| ≤ 1 / 4 := by
      rw [abs_mul, abs_of_pos (zpow_pos (by norm_num : (0 : ℚ) < 2) exponent)]
      calc
        |(significand : ℚ)| * 2 ^ exponent ≤ 2 ^ 53 * 2 ^ (-55 : ℤ) :=
          mul_le_mul magnitude (zpow_le_zpow_right₀ (by norm_num) (by omega)) (by positivity)
            (by positivity)
        _ = 1 / 4 := by norm_num
    have zero : n = 0 := by
      rw [← Int.abs_lt_one_iff]
      have less : |(n : ℚ)| < 1 := by
        calc
          |(n : ℚ)| = |(significand : ℚ) * 2 ^ exponent - (significand * 2 ^ exponent - n)| := by
            rw [sub_sub_cancel]
          _ ≤ |(significand : ℚ) * 2 ^ exponent| + |(significand : ℚ) * 2 ^ exponent - n| :=
            abs_sub _ _
          _ < 1 := by linarith
      exact_mod_cast less
    rw [zero, Int.cast_zero, sub_zero]
    exact ⟨significand, exponent, bound, low, rfl⟩
  by_cases whole : 0 ≤ exponent
  · obtain ⟨power, rfl⟩ := Int.eq_ofNat_of_zero_le whole
    have same : (significand : ℚ) * 2 ^ (power : ℤ) - n =
        ((significand * 2 ^ power - n : ℤ) : ℚ) := by
      rw [zpow_natCast]
      push_cast
      ring
    rw [same] at near ⊢
    refine isDouble_intCast ?_
    have less : |((significand * 2 ^ power - n : ℤ) : ℚ)| ≤ (2 ^ 53 : ℤ) := by
      push_cast at near ⊢
      linarith
    exact_mod_cast less
  · obtain ⟨digits, opposite⟩ := Int.eq_ofNat_of_zero_le (by omega : 0 ≤ -exponent)
    have inverse : (2 : ℚ) ^ exponent * 2 ^ digits = 1 := by
      rw [← zpow_natCast, ← zpow_add₀ (by norm_num), ← opposite, add_neg_cancel, zpow_zero]
    have scale : (0 : ℚ) < 2 ^ exponent := zpow_pos (by norm_num) _
    have same : (significand : ℚ) * 2 ^ exponent - n =
        ((significand - n * 2 ^ digits : ℤ) : ℚ) * 2 ^ exponent := by
      push_cast
      rw [sub_mul, mul_assoc, mul_comm ((2 : ℚ) ^ digits), inverse, mul_one]
    refine ⟨significand - n * 2 ^ digits, exponent, ?_, low, same⟩
    rw [same, abs_mul, abs_of_pos scale] at near
    have few : (2 : ℚ) ^ digits ≤ 2 ^ 54 := pow_le_pow_right₀ (by norm_num) (by omega)
    have scaled : |((significand - n * 2 ^ digits : ℤ) : ℚ)| ≤ (2 ^ 53 : ℤ) := by
      calc
        |((significand - n * 2 ^ digits : ℤ) : ℚ)| =
            |((significand - n * 2 ^ digits : ℤ) : ℚ)| * 2 ^ exponent * 2 ^ digits := by
          rw [mul_assoc, inverse, mul_one]
        _ ≤ 1 / 2 * 2 ^ 54 := mul_le_mul near few (by positivity) (by norm_num)
        _ = (2 ^ 53 : ℤ) := by norm_num
    exact_mod_cast scaled

/-! ### Neighbours -/

section Neighbours

variable {c : ℚ}

/-- A number of the format is a whole number of its own last digits. -/
theorem roundEven_div_unit (double : IsDouble c) : (roundEven (c / unit c) : ℚ) * unit c = c :=
  nearest_eq_self double

private theorem place_mono {x y : ℚ} (positive : 0 < x) (ordered : x ≤ y) : place x ≤ place y := by
  have logs : Int.log 2 |x| ≤ Int.log 2 |y| := by
    rw [abs_of_pos positive, abs_of_pos (positive.trans_le ordered)]
    exact Int.log_mono_right positive ordered
  unfold place
  omega

private theorem place_le {x : ℚ} {least : ℤ} (positive : 0 < x) (low : -1074 ≤ least)
    (below : x < 2 ^ (least + 53)) : place x ≤ least := by
  have logs : Int.log 2 |x| < least + 53 := by
    rw [abs_of_pos positive, ← Int.lt_zpow_iff_log_lt (by norm_num) positive]
    exact_mod_cast below
  unfold place
  omega

/-- A number of the format and its last digit stay within the binade. -/
private theorem add_unit_le_binade (positive : 0 < c) (double : IsDouble c) :
    roundEven (c / unit c) + 1 ≤ 2 ^ 53 ∧ c + unit c ≤ 2 ^ (place c + 53) := by
  have scale := unit_pos c
  have edge : (2 : ℚ) ^ (place c + 53) = 2 ^ 53 * unit c := by
    rw [unit, zpow_add₀ (by norm_num), mul_comm]
    norm_num
  have below : (roundEven (c / unit c) : ℚ) * unit c < 2 ^ 53 * unit c := by
    have binade := lt_binade c
    rw [abs_of_pos positive, edge] at binade
    rwa [roundEven_div_unit double]
  have digits : roundEven (c / unit c) + 1 ≤ 2 ^ 53 := by
    exact_mod_cast lt_of_mul_lt_mul_right below scale.le
  refine ⟨digits, ?_⟩
  have many : (roundEven (c / unit c) : ℚ) + 1 ≤ 2 ^ 53 := by exact_mod_cast digits
  calc
    c + unit c = (roundEven (c / unit c) + 1) * unit c := by
      rw [add_mul, roundEven_div_unit double, one_mul]
    _ ≤ 2 ^ 53 * unit c := mul_le_mul_of_nonneg_right many scale.le
    _ = 2 ^ (place c + 53) := edge.symm

theorem isDouble_add_unit (positive : 0 < c) (double : IsDouble c) : IsDouble (c + unit c) := by
  refine ⟨roundEven (c / unit c) + 1, place c, ?_, le_max_right _ _, ?_⟩
  · have few := (add_unit_le_binade positive double).1
    have least : 0 ≤ roundEven (c / unit c) :=
      le_roundEven (by push_cast; exact (div_pos positive (unit_pos c)).le)
    rw [abs_of_nonneg (by omega)]
    omega
  · change c + unit c = _ * unit c
    push_cast
    rw [add_mul, roundEven_div_unit double, one_mul]

/-- The next number of the format is a last digit on. -/
theorem add_unit_le {d : ℚ} (positive : 0 < c) (double : IsDouble c) (also : IsDouble d)
    (less : c < d) : c + unit c ≤ d := by
  have whole := roundEven_div_unit double
  have scale := unit_pos c
  obtain ⟨significand, exponent, bound, low, rfl⟩ := also
  by_cases coarse : place c ≤ exponent
  · obtain ⟨n, same⟩ := on_grid significand coarse
    rw [same] at less ⊢
    change c < n * unit c at less
    change c + unit c ≤ n * unit c
    have more : roundEven (c / unit c) < n := by
      have scaled : (roundEven (c / unit c) : ℚ) * unit c < n * unit c := whole.trans_lt less
      exact_mod_cast lt_of_mul_lt_mul_right scaled scale.le
    have next : (roundEven (c / unit c) : ℚ) + 1 ≤ n := by exact_mod_cast more
    calc
      c + unit c = (roundEven (c / unit c) + 1) * unit c := by rw [add_mul, whole, one_mul]
      _ ≤ n * unit c := mul_le_mul_of_nonneg_right next scale.le
  · have binade := binade_le positive.ne' (by omega)
    rw [abs_of_pos positive] at binade
    exact absurd (fine_le significand bound (not_le.mp coarse)) (not_le.mpr (binade.trans_lt less))

/-- Up to the middle between it and the next, everything above is rounded down to a number of the
format whose last digit is even. -/
theorem nearest_le_iff (positive : 0 < c) (double : IsDouble c)
    (even : roundEven (c / unit c) % 2 = 0) (x : ℚ) : nearest x ≤ c ↔ x ≤ c + unit c / 2 := by
  have whole := roundEven_div_unit double
  have scale := unit_pos c
  constructor
  · intro down
    by_contra beyond
    have above := not_le.mp beyond
    have nextDouble := isDouble_add_unit positive double
    rcases le_total (c + unit c) x with past | before
    · have up := le_nearest nextDouble past
      linarith
    · have best := nearest_best x nextDouble
      rw [abs_of_nonneg (by linarith : 0 ≤ c + unit c - x),
        abs_of_nonpos (by linarith : nearest x - x ≤ 0)] at best
      linarith
  · intro under
    refine (nearest_mono under).trans_eq ?_
    have samePlace : place (c + unit c / 2) = place c := by
      refine le_antisymm (place_le (by linarith) (le_max_right _ _) ?_)
        (place_mono positive (by linarith))
      have next := (add_unit_le_binade positive double).2
      linarith
    have half : (c + unit c / 2) / unit c = (roundEven (c / unit c) : ℚ) + 1 / 2 := by
      rw [div_eq_iff scale.ne', add_mul, whole]
      ring
    have sameUnit : unit (c + unit c / 2) = unit c := by rw [unit, samePlace, unit]
    rw [nearest, sameUnit, half, roundEven_add_half even, whole]

end Neighbours

/-! ### Natural numbers -/

section Naturals

variable {n : ℕ}

theorem isDouble_natCast (small : n ≤ 2 ^ 53) : IsDouble n := by
  have whole := isDouble_intCast (n := n) (by rw [Nat.abs_cast]; exact_mod_cast small)
  exact_mod_cast whole

theorem place_natCast (n : ℕ) : place n = Nat.log 2 n - 52 := by
  rw [place, Nat.abs_cast, Int.log_natCast]
  omega

/-- A natural number of fewer than 53 digits leaves its last digit to zeros. -/
private theorem digits_natCast (positive : 0 < n) (small : n < 2 ^ 52) :
    ∃ spare : ℕ, Nat.log 2 n + spare = 51 ∧ roundEven (n / unit (n : ℚ)) = n * 2 ^ spare * 2 := by
  have short : Nat.log 2 n < 52 := (Nat.log_lt_iff_lt_pow (by norm_num) positive.ne').mpr small
  obtain ⟨spare, exponent⟩ := Nat.exists_eq_add_of_le (Nat.le_of_lt_succ short)
  refine ⟨spare, exponent.symm, ?_⟩
  have scaled : (n : ℚ) / unit n = ((n * 2 ^ spare * 2 : ℤ) : ℚ) := by
    have inverse : unit (n : ℚ) = ((2 : ℚ) ^ (spare + 1))⁻¹ := by
      rw [unit, place_natCast, ← zpow_natCast, ← zpow_neg]
      congr 1
      push_cast
      omega
    rw [inverse, div_inv_eq_mul, pow_succ]
    push_cast
    ring
  rw [scaled, roundEven_intCast]

theorem unit_natCast_le_one (positive : 0 < n) (small : n < 2 ^ 52) : unit (n : ℚ) ≤ 1 / 2 := by
  have short : Nat.log 2 n < 52 := (Nat.log_lt_iff_lt_pow (by norm_num) positive.ne').mpr small
  calc
    unit (n : ℚ) ≤ 2 ^ (-1 : ℤ) := by
      rw [unit, place_natCast]
      exact zpow_le_zpow_right₀ (by norm_num) (by omega)
    _ = 1 / 2 := by norm_num

/-- What is rounded to a natural number or less exceeds it by half a last digit at most. -/
theorem nearest_le_natCast_iff (positive : 0 < n) (small : n < 2 ^ 52) (x : ℚ) :
    nearest x ≤ n ↔ x ≤ n + unit n / 2 := by
  obtain ⟨spare, _, digits⟩ := digits_natCast positive small
  exact nearest_le_iff (by exact_mod_cast positive)
    (isDouble_natCast (small.le.trans (by norm_num))) (by rw [digits]; omega) x

/-- A hundred times as large, a number has at least six binary digits more. -/
theorem unit_hundredfold (positive : 0 < n) : 64 * unit (n : ℚ) ≤ unit ((100 * n : ℕ) : ℚ) := by
  have logs : Nat.log 2 n + 6 ≤ Nat.log 2 (100 * n) := by
    refine (Nat.le_log_iff_pow_le (by norm_num) (by omega)).mpr ?_
    calc
      2 ^ (Nat.log 2 n + 6) = 2 ^ Nat.log 2 n * 64 := by rw [pow_add]; norm_num
      _ ≤ n * 64 := Nat.mul_le_mul_right _ (Nat.pow_log_le_self 2 positive.ne')
      _ ≤ 100 * n := by omega
  calc
    64 * unit (n : ℚ) = 2 ^ ((Nat.log 2 n : ℤ) - 52 + 6) := by
      rw [unit, place_natCast, zpow_add₀ (by norm_num), mul_comm]
      norm_num
    _ ≤ unit ((100 * n : ℕ) : ℚ) := by
      rw [unit, place_natCast]
      exact zpow_le_zpow_right₀ (by norm_num) (by omega)

/-- A hundredth of a number of the format is rounded past a natural number exactly when the number
is past a hundred times that. -/
theorem nearest_hundredth_le_iff (positive : 0 < n) (small : 100 * n < 2 ^ 52) {x : ℚ}
    (double : IsDouble x) : nearest (x / 100) ≤ n ↔ x ≤ (100 * n : ℕ) := by
  rw [nearest_le_natCast_iff positive (by omega)]
  constructor
  · intro near
    by_contra beyond
    have next := add_unit_le (by exact_mod_cast (by omega : 0 < 100 * n))
      (isDouble_natCast (by omega)) double (not_le.mp beyond)
    have wide := unit_hundredfold positive
    have scale := unit_pos (n : ℚ)
    push_cast at next wide
    rw [div_le_iff₀ (by norm_num)] at near
    linarith
  · intro under
    have scale := unit_pos (n : ℚ)
    push_cast at under
    rw [div_le_iff₀ (by norm_num)]
    linarith

end Naturals

end Assaybank.Library.Binary64
