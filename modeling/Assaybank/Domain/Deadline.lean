import Assaybank.Runtime.Number

/-!
Owns the deadline of a sitting (`packages/core-domain/src/deadline.ts`).

An instant is a whole number of milliseconds, as a date holds it. The sum, the product and the
quotient under the rounding up are those of doubles; within the bounds none of them overflows.
-/

namespace Assaybank.Domain

open Assaybank.Runtime Assaybank.Library

/-- Milliseconds since the epoch, as `getTime` answers. -/
abbrev EpochMillis := Int

/-- A number of the runtime, by what `String` writes for it. -/
inductive JsNumber where
  | finite (d : Decimal)
  | infinite (negative : Bool)
  | nan

def JsNumber.text : JsNumber → JsString
  | .finite d => numberText d
  | .infinite false => js "Infinity"
  | .infinite true => js "-Infinity"
  | .nan => js "NaN"

def JsNumber.value : JsNumber → JsDouble
  | .finite d => .ofRat d.toRat
  | .infinite negative => .infinite negative
  | .nan => .nan

/-- Seven days. -/
def MAX_DURATION_SECONDS : Int := 7 * 24 * 60 * 60

/-- 1000% extra time. -/
def MAX_EXTRA_TIME_PCT : Int := 1000

/-- The whole seconds a sitting lasts with its accommodation, rounded up. -/
def totalSeconds (durationSeconds : Int) (extraTimePct : ℚ) : Int :=
  ⌈Binary64.nearest
    (Binary64.nearest (durationSeconds * Binary64.nearest (100 + extraTimePct)) / 100)⌉

/-- A positive integer. -/
def positiveInteger? (number : JsNumber) : Option Int :=
  match number.value with
  | .finite value => if value.den = 1 ∧ 0 < value then some value.num else none
  | _ => none

/-- A finite number from zero on. -/
def nonNegative? (number : JsNumber) : Option ℚ :=
  match number.value with
  | .finite value => if 0 ≤ value then some value else none
  | _ => none

theorem positiveInteger?_ofInt {n : Int} (positive : 0 < n) (small : n ≤ 2 ^ 53) :
    positiveInteger? (.finite (.ofInt n)) = some n := by
  have value : (JsNumber.finite (.ofInt n)).value = .finite n := by
    rw [JsNumber.value, Decimal.toRat_ofInt, JsDouble.ofRat_intCast]
    rwa [abs_of_pos positive]
  rw [positiveInteger?, value]
  exact if_pos ⟨Rat.den_intCast n, by exact_mod_cast positive⟩

/-- The deadline of a sitting, or the text of the `RangeError`. `none` is an invalid date. -/
def computeDeadline (startedAt : Option EpochMillis) (durationSeconds extraTimePct : JsNumber) :
    Except JsString EpochMillis :=
  match startedAt with
  | none => .error (js "startedAt must be a valid Date, received an invalid Date.")
  | some startedAt =>
      match positiveInteger? durationSeconds with
      | none =>
          .error (js "durationSeconds must be a positive integer, received " ++
            durationSeconds.text ++ js ".")
      | some duration =>
          if MAX_DURATION_SECONDS < duration then
            .error (js s!"durationSeconds must not exceed {MAX_DURATION_SECONDS}, received " ++
              durationSeconds.text ++ js ".")
          else
            match nonNegative? extraTimePct with
            | none =>
                .error (js "extraTimePct must be a finite percentage of zero or more, received " ++
                  extraTimePct.text ++ js ".")
            | some pct =>
                if (MAX_EXTRA_TIME_PCT : ℚ) < pct then
                  .error (js s!"extraTimePct must not exceed {MAX_EXTRA_TIME_PCT}, received " ++
                    extraTimePct.text ++ js ".")
                else .ok (startedAt + totalSeconds duration pct * 1000)

/-- A deadline that is computed is that of a duration and a percentage within their bounds. -/
theorem computeDeadline_eq_ok {startedAt : Option EpochMillis} {durationSeconds extraTimePct : JsNumber}
    {deadline : EpochMillis} :
    computeDeadline startedAt durationSeconds extraTimePct = .ok deadline ↔
      ∃ start duration pct, startedAt = some start ∧
        positiveInteger? durationSeconds = some duration ∧ duration ≤ MAX_DURATION_SECONDS ∧
        nonNegative? extraTimePct = some pct ∧ pct ≤ MAX_EXTRA_TIME_PCT ∧
        deadline = start + totalSeconds duration pct * 1000 := by
  unfold computeDeadline
  cases startedAt with
  | none => simp
  | some start =>
      cases whole : positiveInteger? durationSeconds with
      | none => simp
      | some duration =>
          by_cases long : MAX_DURATION_SECONDS < duration
          · simp [long]
          · cases share : nonNegative? extraTimePct with
            | none => simp [long]
            | some pct =>
                by_cases large : (MAX_EXTRA_TIME_PCT : ℚ) < pct
                · simp [long, large]
                · simp [long, large, not_lt.mp long, not_lt.mp large, eq_comm]

/-! ### The rounding -/

section Rounding

variable {seconds : ℕ} (durationSeconds : Int)

/-- A sitting lasts at most so many seconds exactly when the product of its duration and the
percentage exceeds a hundred times as many by half a last digit at most. -/
theorem totalSeconds_le_iff (extraTimePct : ℚ) (positive : 0 < seconds)
    (small : 100 * seconds < 2 ^ 52) :
    totalSeconds durationSeconds extraTimePct ≤ seconds ↔
      durationSeconds * Binary64.nearest (100 + extraTimePct) ≤
        (100 * seconds : ℕ) + Binary64.unit (100 * seconds : ℕ) / 2 := by
  rw [totalSeconds, Int.ceil_le, Int.cast_natCast,
    Binary64.nearest_hundredth_le_iff positive small (Binary64.isDouble_nearest _),
    Binary64.nearest_le_natCast_iff (by omega) small]

/-- With a whole percentage nothing is lost. -/
theorem totalSeconds_whole_le_iff {extraTimePct : ℕ} (most : extraTimePct ≤ 1000)
    (positive : 0 < seconds) (small : 100 * seconds < 2 ^ 52) :
    totalSeconds durationSeconds extraTimePct ≤ seconds ↔
      durationSeconds * (100 + extraTimePct) ≤ 100 * seconds := by
  have whole : Binary64.nearest (100 + extraTimePct) = ((100 + extraTimePct : ℕ) : ℚ) := by
    rw [← Binary64.nearest_eq_self (Binary64.isDouble_natCast (n := 100 + extraTimePct) (by omega))]
    push_cast
    rfl
  have least := Binary64.unit_pos ((100 * seconds : ℕ) : ℚ)
  have fine := Binary64.unit_natCast_le_one (n := 100 * seconds) (by omega) small
  rw [totalSeconds_le_iff durationSeconds _ positive small, whole]
  constructor
  · intro near
    have below : (durationSeconds : ℚ) * ((100 + extraTimePct : ℕ) : ℚ) <
        ((100 * seconds + 1 : ℕ) : ℚ) := by
      push_cast at near least fine ⊢
      linarith
    have less : durationSeconds * ((100 + extraTimePct : ℕ) : ℤ) < ((100 * seconds + 1 : ℕ) : ℤ) := by
      exact_mod_cast below
    push_cast at less
    omega
  · intro fits
    have under : (durationSeconds : ℚ) * ((100 + extraTimePct : ℕ) : ℚ) ≤
        ((100 * seconds : ℕ) : ℚ) := by
      exact_mod_cast fits
    linarith

end Rounding

/-- A product that a double rounds up lasts a second more than the exact one. -/
example : totalSeconds 3000 (Binary64.nearest (368 / 10)) = 4105 := by decide +kernel

end Assaybank.Domain
