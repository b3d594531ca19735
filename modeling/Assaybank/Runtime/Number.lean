import Assaybank.Library.Binary64
import Assaybank.Runtime.NumberText

/-!
Owns the numbers a caller may pass, the ones that are not finite among them, with `Number`, the
rounding of an exact result and `toFixed`.

Contract: rounding keeps order, across an overflow too (`JsDouble.ofRat_mono`), and `toFixed` does
not carry a value past a bound that is itself on its grid (`toFixed_le`, `le_toFixed`).
-/

namespace Assaybank.Runtime

open Assaybank.Library

/-- A value of type `number`. -/
inductive JsDouble where
  | finite (value : ℚ)
  | infinite (negative : Bool)
  | nan
deriving DecidableEq

/-- The number an exact result is rounded to. One too large is an infinity. -/
def JsDouble.ofRat (exact : ℚ) : JsDouble :=
  let rounded := Binary64.nearest exact
  if Binary64.overflow ≤ |rounded| then .infinite (decide (exact < 0)) else .finite rounded

/-- `Number(s)`. -/
def readNumber (s : JsString) : JsDouble :=
  let literal := trim s
  if literal = js "Infinity" ∨ literal = js "+Infinity" then .infinite false
  else if literal = js "-Infinity" then .infinite true
  else
    match toNumber literal with
    | some number => .ofRat number.toRat
    | none => .nan

/-- `a === b`. -/
def strictEquals : JsDouble → JsDouble → Bool
  | .finite left, .finite right => decide (left = right)
  | .infinite left, .infinite right => left == right
  | _, _ => false

/-! ### Comparison -/

/-- `Number.isInteger(value)`. -/
def JsDouble.isInteger : JsDouble → Bool
  | .finite value => value.den == 1
  | _ => false

/-- `left < right`. -/
def JsDouble.lt : JsDouble → JsDouble → Bool
  | .finite left, .finite right => decide (left < right)
  | .finite _, .infinite negative => !negative
  | .infinite negative, .finite _ => negative
  | .infinite left, .infinite right => left && !right
  | _, _ => false

/-- `left <= right`. -/
def JsDouble.le (left right : JsDouble) : Bool := left.lt right || strictEquals left right

/-- `Math.abs(value)`. -/
def JsDouble.abs : JsDouble → JsDouble
  | .finite value => .finite |value|
  | .infinite _ => .infinite false
  | .nan => .nan

/-- `Number.isFinite(value)`. -/
def JsDouble.isFinite : JsDouble → Bool
  | .finite _ => true
  | _ => false

theorem JsDouble.isInteger_iff {value : JsDouble} :
    value.isInteger = true ↔ ∃ n : Int, value = .finite n := by
  cases value with
  | finite value =>
      rw [isInteger, beq_iff_eq]
      constructor
      · intro whole
        exact ⟨value.num, congrArg JsDouble.finite ((Rat.den_eq_one_iff value).mp whole).symm⟩
      · rintro ⟨n, same⟩
        cases same
        exact Rat.den_intCast n
  | infinite negative => exact iff_of_false Bool.false_ne_true (fun ⟨_, same⟩ => nomatch same)
  | nan => exact iff_of_false Bool.false_ne_true (fun ⟨_, same⟩ => nomatch same)

theorem JsDouble.isFinite_iff {value : JsDouble} :
    value.isFinite = true ↔ ∃ number : ℚ, value = .finite number := by
  cases value with
  | finite number => exact iff_of_true rfl ⟨number, rfl⟩
  | infinite negative => exact iff_of_false Bool.false_ne_true (fun ⟨_, same⟩ => nomatch same)
  | nan => exact iff_of_false Bool.false_ne_true (fun ⟨_, same⟩ => nomatch same)

@[simp] theorem JsDouble.lt_finite {left right : ℚ} :
    JsDouble.lt (.finite left) (.finite right) = true ↔ left < right := decide_eq_true_iff

@[simp] theorem JsDouble.le_finite {left right : ℚ} :
    JsDouble.le (.finite left) (.finite right) = true ↔ left ≤ right := by
  show (decide (left < right) || decide (left = right)) = true ↔ left ≤ right
  rw [Bool.or_eq_true, decide_eq_true_iff, decide_eq_true_iff, le_iff_lt_or_eq]

@[simp] theorem JsDouble.le_infinite (value : ℚ) :
    JsDouble.le (.finite value) (.infinite false) = true := rfl

theorem JsDouble.le_trans {left middle right : JsDouble} (first : left.le middle = true)
    (second : middle.le right = true) : left.le right = true := by
  cases left with
  | nan => cases first
  | infinite negative =>
      cases middle with
      | nan => cases negative <;> cases first
      | finite value =>
          cases negative with
          | false => cases first
          | true =>
              cases right with
              | nan => cases second
              | finite bound => rfl
              | infinite negative => cases negative <;> rfl
      | infinite alsoNegative =>
          cases negative with
          | false =>
              cases alsoNegative with
              | false => exact second
              | true => cases first
          | true =>
              cases right with
              | nan => cases alsoNegative <;> cases second
              | finite bound => rfl
              | infinite negative => cases negative <;> rfl
  | finite value =>
      cases middle with
      | nan => cases first
      | infinite negative =>
          cases negative with
          | true => cases first
          | false =>
              cases right with
              | nan => cases second
              | finite bound => cases second
              | infinite negative =>
                  cases negative with
                  | false => rfl
                  | true => cases second
      | finite between =>
          cases right with
          | nan => cases second
          | infinite negative =>
              cases negative with
              | false => rfl
              | true => cases second
          | finite bound =>
              rw [JsDouble.le_finite] at first second ⊢
              exact first.trans second

/-! ### Rounding of a result -/

theorem JsDouble.ofRat_mono {left right : ℚ} (ordered : left ≤ right) :
    (JsDouble.ofRat left).le (.ofRat right) = true := by
  have rounded := Binary64.nearest_mono ordered
  have sign : ∀ {value : ℚ}, Binary64.overflow ≤ |Binary64.nearest value| →
      (value < 0 ∧ Binary64.nearest value ≤ -Binary64.overflow) ∨
        (0 ≤ value ∧ Binary64.overflow ≤ Binary64.nearest value) := by
    intro value large
    rcases lt_or_ge value 0 with negative | positive
    · have low := Binary64.nearest_le Binary64.isDouble_zero negative.le
      rw [abs_of_nonpos low] at large
      exact .inl ⟨negative, by linarith⟩
    · have high := Binary64.le_nearest Binary64.isDouble_zero positive
      rw [abs_of_nonneg high] at large
      exact .inr ⟨positive, large⟩
  unfold JsDouble.ofRat
  dsimp only
  split
  · rename_i leftLarge
    rcases sign leftLarge with ⟨negative, _⟩ | ⟨positive, high⟩
    · rw [decide_eq_true negative]
      split
      · cases decide (right < 0) <;> rfl
      · rfl
    · have rightLarge : Binary64.overflow ≤ |Binary64.nearest right| :=
        (high.trans rounded).trans (le_abs_self _)
      rw [if_pos rightLarge, decide_eq_false (not_lt.mpr positive),
        decide_eq_false (not_lt.mpr (positive.trans ordered))]
      rfl
  · rename_i leftSmall
    split
    · rename_i rightLarge
      rcases sign rightLarge with ⟨_, low⟩ | ⟨positive, _⟩
      · refine absurd ?_ leftSmall
        rw [le_abs]
        exact .inr (by linarith)
      · rw [decide_eq_false (not_lt.mpr positive)]
        rfl
    · exact JsDouble.le_finite.mpr rounded

/-- A number of the format is its own rounding. -/
theorem JsDouble.ofRat_eq_self {value : ℚ} (double : Binary64.IsDouble value)
    (small : |value| < Binary64.overflow) : JsDouble.ofRat value = .finite value := by
  rw [JsDouble.ofRat, Binary64.nearest_eq_self double]
  exact if_neg (not_le.mpr small)

theorem JsDouble.ofRat_intCast {n : Int} (small : |n| ≤ 2 ^ 53) :
    JsDouble.ofRat n = .finite n := by
  refine JsDouble.ofRat_eq_self (Binary64.isDouble_intCast small) ?_
  have magnitude : |(n : ℚ)| ≤ 2 ^ 53 := by exact_mod_cast small
  exact magnitude.trans_lt (pow_lt_pow_right₀ (by norm_num) (by norm_num))

/-- A difference taken the other way round is as large. -/
theorem JsDouble.abs_ofRat_neg (value : ℚ) :
    (JsDouble.ofRat (-value)).abs = (JsDouble.ofRat value).abs := by
  unfold JsDouble.ofRat
  dsimp only
  rw [Binary64.nearest_neg, abs_neg]
  split
  · rfl
  · exact congrArg JsDouble.finite (abs_neg _)

/-- A number of hundredths. -/
def IsHundredths (d : Decimal) : Prop := ∃ n : Int, d.toRat * 100 = n

/-! ### Rounding -/

/-- `Number(value.toFixed(digits))`: the nearest number of that many decimals, a half going away
from zero. From `1e21` on `toFixed` writes the value itself. -/
def toFixed (digits : Nat) (value : ℚ) : ℚ :=
  if 10 ^ 21 ≤ |value| then value
  else if value < 0 then -(round (-value * 10 ^ digits) / 10 ^ digits)
  else round (value * 10 ^ digits) / 10 ^ digits

/-- A multiple of the last of `digits` decimals. -/
def OnGrid (digits : Nat) (value : ℚ) : Prop := ∃ n : Int, value * 10 ^ digits = n

theorem onGrid_zero (digits : Nat) : OnGrid digits 0 := ⟨0, by simp⟩

theorem onGrid_one (digits : Nat) : OnGrid digits 1 := ⟨10 ^ digits, by simp⟩

theorem onGrid_of_isHundredths {d : Decimal} (exact : IsHundredths d) {digits : Nat}
    (enough : 2 ≤ digits) : OnGrid digits d.toRat := by
  obtain ⟨n, whole⟩ := exact
  obtain ⟨rest, rfl⟩ := Nat.exists_eq_add_of_le enough
  refine ⟨n * 10 ^ rest, ?_⟩
  calc
    d.toRat * 10 ^ (2 + rest) = d.toRat * 100 * 10 ^ rest := by rw [pow_add]; ring
    _ = ((n * 10 ^ rest : Int) : ℚ) := by rw [whole]; push_cast; ring

private theorem round_le_of_le {x : ℚ} {n : Int} (below : x ≤ n) : round x ≤ n := by
  rw [round_eq, ← Int.lt_add_one_iff, Int.floor_lt]
  push_cast
  linarith

private theorem le_round_of_le {x : ℚ} {n : Int} (above : (n : ℚ) ≤ x) : n ≤ round x := by
  rw [round_eq, Int.le_floor]
  linarith

section Bounds

variable {digits : Nat} {value bound : ℚ}

private theorem scale_pos : (0 : ℚ) < 10 ^ digits := by positivity

theorem toFixed_le (grid : OnGrid digits bound) (below : value ≤ bound) :
    toFixed digits value ≤ bound := by
  obtain ⟨n, whole⟩ := grid
  have scaled : value * 10 ^ digits ≤ n := by
    rw [← whole]
    exact mul_le_mul_of_nonneg_right below scale_pos.le
  unfold toFixed
  split_ifs with huge negative
  · exact below
  · rw [neg_le, le_div_iff₀ scale_pos, neg_mul bound, whole]
    have rounded : -n ≤ round (-value * 10 ^ digits) := by
      apply le_round_of_le
      push_cast
      linarith
    exact_mod_cast rounded
  · rw [div_le_iff₀ scale_pos, whole]
    exact_mod_cast round_le_of_le scaled

theorem le_toFixed (grid : OnGrid digits bound) (above : bound ≤ value) :
    bound ≤ toFixed digits value := by
  obtain ⟨n, whole⟩ := grid
  have scaled : (n : ℚ) ≤ value * 10 ^ digits := by
    rw [← whole]
    exact mul_le_mul_of_nonneg_right above scale_pos.le
  unfold toFixed
  split_ifs with huge negative
  · exact above
  · rw [le_neg, div_le_iff₀ scale_pos, neg_mul bound, whole]
    have rounded : round (-value * 10 ^ digits) ≤ -n := by
      apply round_le_of_le
      push_cast
      linarith
    exact_mod_cast rounded
  · rw [le_div_iff₀ scale_pos, whole]
    exact_mod_cast le_round_of_le scaled

end Bounds

/-! ### Two decimals -/

section TwoDecimals

variable {value : ℚ} {n : Int}

private theorem round_eq_of_near {x : ℚ} (near : |x - n| < 1 / 2) : round x = n := by
  obtain ⟨low, high⟩ := abs_lt.mp near
  rw [round_eq, Int.floor_eq_iff]
  constructor
  · linarith
  · linarith

/-- What is within half a hundredth of a hundredth is written as it. -/
theorem toFixed_two_of_near (small : |value| < 10 ^ 21) (near : |value * 100 - n| < 1 / 2) :
    toFixed 2 value = n / 100 := by
  unfold toFixed
  rw [if_neg (not_le.mpr small), show (10 : ℚ) ^ 2 = 100 by norm_num]
  split
  · have mirrored : |-value * 100 - ((-n : Int) : ℚ)| < 1 / 2 := by
      rw [← abs_neg]
      push_cast
      convert near using 2
      ring
    rw [round_eq_of_near mirrored]
    push_cast
    ring
  · rw [round_eq_of_near near]

theorem toFixed_two_hundredth (small : |value| < 10 ^ 21) : ∃ n : Int, toFixed 2 value = n / 100 := by
  unfold toFixed
  rw [if_neg (not_le.mpr small), show (10 : ℚ) ^ 2 = 100 by norm_num]
  split
  · refine ⟨-round (-value * 100), ?_⟩
    push_cast
    ring
  · exact ⟨round (value * 100), rfl⟩

/-- Below ten thousand the number nearest to a hundredth is far nearer to it than to the next. -/
theorem nearest_hundredth_near (bounded : |Binary64.nearest (n / 100)| ≤ 10 ^ 4) :
    |Binary64.nearest (n / 100) * 100 - n| ≤ 1 / 10 ^ 9 := by
  have small : |(n / 100 : ℚ)| < 2 ^ (-39 + 53 : ℤ) := by
    have power : Binary64.IsDouble (2 ^ (-39 + 53 : ℤ)) := Binary64.isDouble_zpow (by norm_num)
    have more : (10 : ℚ) ^ 4 < 2 ^ (-39 + 53 : ℤ) := by norm_num
    obtain ⟨low, high⟩ := abs_le.mp bounded
    rw [abs_lt]
    constructor
    · by_contra beyond
      have down := Binary64.nearest_le power.neg (not_lt.mp beyond)
      linarith
    · by_contra beyond
      have up := Binary64.le_nearest power (not_lt.mp beyond)
      linarith
  have near := Binary64.nearest_near (n / 100)
  have digit := Binary64.unit_le (by norm_num) small
  have scaled : Binary64.nearest (n / 100) * 100 - n =
      (Binary64.nearest (n / 100) - n / 100) * 100 := by ring
  rw [scaled, abs_mul, abs_of_pos (by norm_num : (0 : ℚ) < 100)]
  norm_num at digit ⊢
  linarith

/-- Below ten thousand a number is read back from its two decimals exactly when it is the nearest
to a hundredth. -/
theorem nearest_toFixed_two_iff (bounded : |value| ≤ 10 ^ 4) :
    Binary64.nearest (toFixed 2 value) = value ↔
      ∃ n : Int, value = Binary64.nearest (n / 100) := by
  have small : |value| < 10 ^ 21 := bounded.trans_lt (by norm_num)
  constructor
  · intro same
    obtain ⟨n, hundredth⟩ := toFixed_two_hundredth small
    exact ⟨n, by rw [← hundredth, same]⟩
  · rintro ⟨n, rfl⟩
    rw [toFixed_two_of_near small
      ((nearest_hundredth_near bounded).trans_lt (by norm_num))]

end TwoDecimals

end Assaybank.Runtime
