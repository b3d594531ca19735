import Assaybank.Grading.Compare
import Assaybank.Library.Basic

/-!
Owns the marks of a choice question and of a short answer (`packages/grading/src/round.ts`,
`mcq.ts`, `short-answer.ts`), in exact arithmetic.

Contract: what either grader returns lies between zero and a maximum that the rounding leaves
alone (`gradeMcq_bounds`, `gradeShortAnswer_bounds`).
-/

namespace Assaybank.Grading

open Assaybank.Runtime Assaybank.Library

/-- A `RangeError`, with what its text is made of. -/
inductive RangeError where
  /-- `${label} must be a finite number of at least ${min}, received ${value}.` -/
  | notAtLeast (label : JsString) (min : ℚ) (value : JsDouble)
  /-- `An MCQ must declare at least one correct option.` -/
  | noCorrectOption
deriving DecidableEq

/-- Decimal places of a score. -/
def SCALE : Nat := 6

/-- The refusal of a value that is not finite is not reached: exact arithmetic on finite numbers
gives finite numbers. -/
def roundScore (value : ℚ) : ℚ := toFixed SCALE value

/-- The number itself, once it is known to be finite and at least `min`. -/
def assertFiniteAtLeast (value : JsDouble) (label : JsString) (min : ℚ) : Except RangeError ℚ :=
  match value with
  | .finite number => if number < min then .error (.notAtLeast label min value) else .ok number
  | _ => .error (.notAtLeast label min value)

theorem assertFiniteAtLeast_eq_ok {value : JsDouble} {label : JsString} {min number : ℚ} :
    assertFiniteAtLeast value label min = .ok number ↔ value = .finite number ∧ min ≤ number := by
  cases value with
  | finite given =>
      rw [assertFiniteAtLeast]
      by_cases low : given < min
      · rw [if_pos low]
        constructor
        · intro impossible
          cases impossible
        · rintro ⟨same, above⟩
          cases same
          exact absurd low (not_lt.mpr above)
      · rw [if_neg low]
        constructor
        · intro same
          cases same
          exact ⟨rfl, not_lt.mp low⟩
        · rintro ⟨same, _⟩
          cases same
          rfl
  | infinite negative => simp [assertFiniteAtLeast]
  | nan => simp [assertFiniteAtLeast]

/-- A rounded score stays between zero and a maximum of six decimals. -/
theorem roundScore_bounds {maxScore value : ℚ} (grid : OnGrid SCALE maxScore) (low : 0 ≤ value)
    (high : value ≤ maxScore) : 0 ≤ roundScore value ∧ roundScore value ≤ maxScore :=
  ⟨le_toFixed (onGrid_zero SCALE) low, toFixed_le grid high⟩

/-! ### Choice questions -/

structure McqScoringOptions where
  maxScore : JsDouble
  /-- The penalty for each wrong option selected. -/
  negativeScore : JsDouble
  partialCredit : Bool
  /-- Whether the penalty may push the question below zero. -/
  allowNegativeTotal : Option Bool

/-- `Math.max(floor, value)`, where the floor is zero or minus infinity. -/
def floored (allowNegativeTotal : Option Bool) (value : ℚ) : ℚ :=
  if allowNegativeTotal = some true then value else max 0 value

def gradeMcq (selected correct : List JsString) (opts : McqScoringOptions) :
    Except RangeError ℚ := do
  let maxScore ← assertFiniteAtLeast opts.maxScore (js "maxScore") 0
  let negativeScore ← assertFiniteAtLeast opts.negativeScore (js "negativeScore") 0
  let correctSet := distinct correct
  let selectedSet := distinct selected
  if correctSet.length = 0 then .error .noCorrectOption
  else if selectedSet.length = 0 then .ok 0
  else
    let hits := (selectedSet.filter fun option => correctSet.contains option).length
    let misses := selectedSet.length - hits
    if opts.partialCredit = false then
      .ok (roundScore
        (if misses = 0 ∧ hits = correctSet.length then maxScore
        else floored opts.allowNegativeTotal (-negativeScore)))
    else
      let perCorrectOption := maxScore / correctSet.length
      let raw := perCorrectOption * hits - negativeScore * misses
      .ok (roundScore (min maxScore (floored opts.allowNegativeTotal raw)))

/-! ### Short answers -/

structure AnswerKey where
  mode : GradingMode
  expected : JsString
  /-- The question's `maxScore` unless the key says otherwise. -/
  score : Option JsDouble
  options : Option CompareOptions

/-- The keys from position `index` on, each with its score once that is known to be finite and not
negative. -/
def validateKeys (index : Nat) : List AnswerKey → Except RangeError (List (AnswerKey × Option ℚ))
  | [] => .ok []
  | key :: rest => do
      let score ← key.score.mapM fun score =>
        assertFiniteAtLeast score (js "keys[" ++ natText index ++ js "].score") 0
      let later ← validateKeys (index + 1) rest
      return (key, score) :: later

/-- The first key that matches decides. -/
def gradeShortAnswer (engine : TextEngine) (answer : JsString) (keys : List AnswerKey)
    (maxScore : JsDouble) : Except RangeError ℚ := do
  let maxScore ← assertFiniteAtLeast maxScore (js "maxScore") 0
  let validated ← validateKeys 0 keys
  match validated.find? fun key =>
      (compareCase engine key.1.mode key.1.expected answer key.1.options).passed with
  | some (_, score) => return roundScore (min maxScore (score.getD maxScore))
  | none => return 0

/-! ### Bounds -/

section Bounds

variable {maxScore score : ℚ}

private theorem floored_nonneg {allowed : Option Bool} (notSet : allowed ≠ some true) (value : ℚ) :
    0 ≤ floored allowed value := by
  rw [floored, if_neg notSet]
  exact le_max_left 0 value

private theorem floored_neg {allowed : Option Bool} (notSet : allowed ≠ some true) {penalty : ℚ}
    (nonnegative : 0 ≤ penalty) : floored allowed (-penalty) = 0 := by
  rw [floored, if_neg notSet]
  exact max_eq_left (neg_nonpos.mpr nonnegative)

theorem gradeMcq_bounds {selected correct : List JsString} {opts : McqScoringOptions}
    (grid : OnGrid SCALE maxScore) (maximum : opts.maxScore = .finite maxScore)
    (notSet : opts.allowNegativeTotal ≠ some true)
    (graded : gradeMcq selected correct opts = .ok score) : 0 ≤ score ∧ score ≤ maxScore := by
  unfold gradeMcq at graded
  obtain ⟨given, checked, graded⟩ := bind_eq_ok.mp graded
  obtain ⟨penalty, checkedPenalty, graded⟩ := bind_eq_ok.mp graded
  rw [assertFiniteAtLeast_eq_ok, maximum] at checked
  obtain ⟨same, nonnegative⟩ := checked
  cases same
  have penaltyNonneg := (assertFiniteAtLeast_eq_ok.mp checkedPenalty).2
  dsimp only at graded
  split at graded
  · cases graded
  · split at graded
    · cases graded
      exact ⟨le_refl 0, nonnegative⟩
    · split at graded
      · cases graded
        split_ifs with exact
        · exact roundScore_bounds grid nonnegative (le_refl maxScore)
        · rw [floored_neg notSet penaltyNonneg]
          exact roundScore_bounds grid (le_refl 0) nonnegative
      · cases graded
        apply roundScore_bounds grid
        · exact le_min nonnegative (floored_nonneg notSet _)
        · exact min_le_left _ _

/-- A question with a correct option and a proper penalty is marked, whatever is selected. -/
theorem gradeMcq_returns {selected correct : List JsString} {opts : McqScoringOptions}
    {penalty : ℚ} (maximum : opts.maxScore = .finite maxScore) (nonnegative : 0 ≤ maxScore)
    (negative : opts.negativeScore = .finite penalty) (proper : 0 ≤ penalty)
    (filled : correct ≠ []) : ∃ score, gradeMcq selected correct opts = .ok score := by
  have filledSet : (distinct correct).length ≠ 0 := by
    intro empty
    obtain ⟨first, inside⟩ := List.exists_mem_of_ne_nil correct filled
    rw [List.length_eq_zero_iff] at empty
    have member := mem_distinct.mpr inside
    rw [empty] at member
    cases member
  unfold gradeMcq
  rw [assertFiniteAtLeast_eq_ok.mpr ⟨maximum, nonnegative⟩,
    assertFiniteAtLeast_eq_ok.mpr ⟨negative, proper⟩]
  simp only [bind, Except.bind, if_neg filledSet]
  split
  · exact ⟨_, rfl⟩
  · split
    · exact ⟨_, rfl⟩
    · exact ⟨_, rfl⟩

private theorem validateKeys_nonneg {index : Nat} {keys : List AnswerKey}
    {validated : List (AnswerKey × Option ℚ)} (valid : validateKeys index keys = .ok validated) :
    ∀ key ∈ validated, ∀ score, key.2 = some score → 0 ≤ score := by
  induction keys generalizing index validated with
  | nil =>
      cases valid
      intro key inside
      cases inside
  | cons first rest inductionHypothesis =>
      unfold validateKeys at valid
      obtain ⟨given, checked, valid⟩ := bind_eq_ok.mp valid
      obtain ⟨later, validLater, valid⟩ := bind_eq_ok.mp valid
      cases valid
      intro key inside score found
      cases List.mem_cons.mp inside with
      | inr after => exact inductionHypothesis validLater key after score found
      | inl here =>
          subst here
          cases declared : first.score with
          | none =>
              rw [declared] at checked
              cases checked
              cases found
          | some number =>
              rw [declared] at checked
              obtain ⟨accepted, finite, same⟩ := bind_eq_ok.mp checked
              cases same
              cases found
              exact (assertFiniteAtLeast_eq_ok.mp finite).2

theorem gradeShortAnswer_bounds {engine : TextEngine} {answer : JsString} {keys : List AnswerKey}
    (grid : OnGrid SCALE maxScore)
    (graded : gradeShortAnswer engine answer keys (.finite maxScore) = .ok score) :
    0 ≤ score ∧ score ≤ maxScore := by
  unfold gradeShortAnswer at graded
  obtain ⟨given, checked, graded⟩ := bind_eq_ok.mp graded
  obtain ⟨validated, valid, graded⟩ := bind_eq_ok.mp graded
  obtain ⟨same, nonnegative⟩ := assertFiniteAtLeast_eq_ok.mp checked
  cases same
  split at graded
  · rename_i key awarded matched
    cases graded
    apply roundScore_bounds grid
    · apply le_min nonnegative
      cases declared : awarded with
      | none => exact nonnegative
      | some number =>
          exact validateKeys_nonneg valid _ (List.mem_of_find?_eq_some matched) number declared
    · exact min_le_left _ _
  · cases graded
    exact ⟨le_refl 0, nonnegative⟩

end Bounds

end Assaybank.Grading
