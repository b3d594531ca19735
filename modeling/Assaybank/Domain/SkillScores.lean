import Assaybank.Library.Basic
import Assaybank.Library.OrderedMap
import Assaybank.Runtime.Number

/-!
Owns the roll-up of per-question marks to a proportion for each skill
(`packages/core-domain/src/skill-scores.ts`, `round.ts`), in exact arithmetic.

Contract: over marks between zero and their maximum and weights that are finite and not negative,
the roll-up returns, and what it returns are proportions (`rollUpSkillScores_ok`).
-/

namespace Assaybank.Domain

open Assaybank.Runtime Assaybank.Library

variable {SkillId : Type} [DecidableEq SkillId]

/-- Decimal places kept on a rolled-up proportion. -/
def PROPORTION_SCALE : Nat := 6

/-- The refusal of a value that is not finite is not reached: exact arithmetic on finite numbers
gives finite numbers. -/
def roundProportion (value : ℚ) : ℚ := toFixed PROPORTION_SCALE value

/-- One graded question's contribution. -/
structure QuestionSkillScore (SkillId : Type) where
  skillIds : List SkillId
  score : JsDouble
  maxScore : JsDouble

/-- Per-skill weights. A skill absent from the map weighs 1. -/
abbrev SkillWeights (SkillId : Type) := List (SkillId × JsDouble)

/-- What an argument out of range is called in the error. -/
inductive RangeLabel (SkillId : Type) where
  /-- `maxScore` -/
  | maxScore
  /-- `score` -/
  | score
  /-- `weight for skill '${skill}'` -/
  | weightFor (skill : SkillId)
deriving DecidableEq

/-- The `RangeError` of `${label} is out of range, received ${value}.` -/
structure OutOfRange (SkillId : Type) where
  label : RangeLabel SkillId
  value : JsDouble
deriving DecidableEq

/-- The number itself, once it is known to be finite and in range. -/
def assertFiniteInRange (value : JsDouble) (label : RangeLabel SkillId) (min : ℚ)
    (max : Option ℚ) : Except (OutOfRange SkillId) ℚ :=
  match value with
  | .finite number =>
      if number < min ∨ max.any (fun bound => decide (bound < number)) then .error ⟨label, value⟩
      else .ok number
  | _ => .error ⟨label, value⟩

/-- The marks of every skill so far. -/
structure Tally (SkillId : Type) where
  earned : List (SkillId × ℚ)
  available : List (SkillId × ℚ)

/-- The body of the inner loop. -/
def addSkill (weights : SkillWeights SkillId) (score maxScore : ℚ) (tally : Tally SkillId)
    (skill : SkillId) : Except (OutOfRange SkillId) (Tally SkillId) := do
  let weight ← assertFiniteInRange ((weights.lookup skill).getD (.finite 1)) (.weightFor skill) 0
    none
  return {
    earned := setEntry tally.earned skill ((tally.earned.lookup skill).getD 0 + weight * score)
    available :=
      setEntry tally.available skill ((tally.available.lookup skill).getD 0 + weight * maxScore) }

/-- The body of the outer loop. -/
def addQuestion (weights : SkillWeights SkillId) (tally : Tally SkillId)
    (question : QuestionSkillScore SkillId) : Except (OutOfRange SkillId) (Tally SkillId) := do
  let maxScore ← assertFiniteInRange question.maxScore .maxScore 0 none
  let score ← assertFiniteInRange question.score .score 0 (some maxScore)
  (distinct question.skillIds).foldlM (addSkill weights score maxScore) tally

/-- The proportions of the skills with marks available. `available` holds a skill once, so each is
set in the result once. -/
def proportions (tally : Tally SkillId) : List (SkillId × ℚ) :=
  tally.available.filterMap fun entry =>
    if entry.2 ≤ 0 then none
    else some (entry.1, roundProportion ((tally.earned.lookup entry.1).getD 0 / entry.2))

def rollUpSkillScores (perQuestion : List (QuestionSkillScore SkillId))
    (weights : SkillWeights SkillId) : Except (OutOfRange SkillId) (List (SkillId × ℚ)) := do
  let tally ← perQuestion.foldlM (addQuestion weights) ⟨[], []⟩
  return proportions tally

/-! ### The tallies -/

omit [DecidableEq SkillId] in
theorem assertFiniteInRange_ok {number min : ℚ} {max : Option ℚ} (label : RangeLabel SkillId)
    (low : min ≤ number) (high : ∀ bound, max = some bound → number ≤ bound) :
    assertFiniteInRange (.finite number) label min max = .ok number := by
  rw [assertFiniteInRange, if_neg]
  rintro (below | above)
  · exact absurd below (not_lt.mpr low)
  · cases max with
    | none => cases above
    | some bound => exact absurd (of_decide_eq_true above) (not_lt.mpr (high bound rfl))

/-- Marks within their maximum. -/
structure InRange (question : QuestionSkillScore SkillId) : Prop where
  bounds : ∃ score maxScore, question.score = .finite score ∧ question.maxScore = .finite maxScore ∧
    0 ≤ score ∧ score ≤ maxScore

/-- Every weight is finite and not negative. -/
def ProperWeights (weights : SkillWeights SkillId) : Prop :=
  ∀ entry ∈ weights, ∃ weight : ℚ, entry.2 = .finite weight ∧ 0 ≤ weight

/-- No skill has earned more than was available to it, or less than nothing. -/
structure Balanced (tally : Tally SkillId) : Prop where
  distinctSkills : (tally.available.map Prod.fst).Nodup
  within : ∀ skill, 0 ≤ (tally.earned.lookup skill).getD 0 ∧
    (tally.earned.lookup skill).getD 0 ≤ (tally.available.lookup skill).getD 0

section Step

variable {weights : SkillWeights SkillId}

private theorem weight_proper (proper : ProperWeights weights) (skill : SkillId) :
    ∃ weight : ℚ, (weights.lookup skill).getD (.finite 1) = .finite weight ∧ 0 ≤ weight := by
  cases found : weights.lookup skill with
  | none => exact ⟨1, rfl, by norm_num⟩
  | some value => exact proper (skill, value) (mem_of_lookup found)

theorem addSkill_balanced (proper : ProperWeights weights) {score maxScore : ℚ}
    (low : 0 ≤ score) (high : score ≤ maxScore) {tally : Tally SkillId} (balanced : Balanced tally)
    (skill : SkillId) :
    ∃ next, addSkill weights score maxScore tally skill = .ok next ∧ Balanced next := by
  obtain ⟨weight, found, nonnegative⟩ := weight_proper proper skill
  have step : addSkill weights score maxScore tally skill = .ok
      ⟨setEntry tally.earned skill ((tally.earned.lookup skill).getD 0 + weight * score),
        setEntry tally.available skill
          ((tally.available.lookup skill).getD 0 + weight * maxScore)⟩ := by
    rw [addSkill, found, assertFiniteInRange_ok _ nonnegative (by simp)]
    rfl
  refine ⟨_, step, ?_⟩
  constructor
  · exact nodup_setEntry balanced.distinctSkills _ _
  · intro other
    rw [lookup_setEntry, lookup_setEntry]
    by_cases same : other = skill
    · subst same
      rw [if_pos rfl, if_pos rfl]
      have before := balanced.within other
      have earned : 0 ≤ weight * score := mul_nonneg nonnegative low
      have kept : weight * score ≤ weight * maxScore := mul_le_mul_of_nonneg_left high nonnegative
      simp only [Option.getD_some]
      constructor
      · linarith
      · linarith
    · rw [if_neg same, if_neg same]
      exact balanced.within other

theorem addQuestion_balanced (proper : ProperWeights weights) {tally : Tally SkillId}
    {question : QuestionSkillScore SkillId} (balanced : Balanced tally)
    (inRange : InRange question) :
    ∃ next, addQuestion weights tally question = .ok next ∧ Balanced next := by
  obtain ⟨score, maxScore, scored, maximum, low, high⟩ := inRange.bounds
  have belowMax : ∀ bound, some maxScore = some bound → score ≤ bound := by
    intro bound same
    cases same
    exact high
  have step : addQuestion weights tally question =
      (distinct question.skillIds).foldlM (addSkill weights score maxScore) tally := by
    rw [addQuestion, maximum, scored, assertFiniteInRange_ok _ (low.trans high) (by simp)]
    show (do
      let score ← assertFiniteInRange (.finite score) .score 0 (some maxScore)
      (distinct question.skillIds).foldlM (addSkill weights score maxScore) tally) = _
    rw [assertFiniteInRange_ok _ low belowMax]
    rfl
  have anySkill : ∀ (before : Tally SkillId) (skill : SkillId), Balanced before → True →
      ∃ after, addSkill weights score maxScore before skill = .ok after ∧ Balanced after :=
    fun _ skill kept _ => addSkill_balanced proper low high kept skill
  rw [step]
  exact foldlM_ok anySkill (fun _ _ => trivial) balanced

end Step

/-! ### The proportions -/

theorem proportions_bounds {tally : Tally SkillId} (balanced : Balanced tally) :
    ∀ entry ∈ proportions tally, 0 ≤ entry.2 ∧ entry.2 ≤ 1 := by
  intro entry inside
  obtain ⟨⟨skill, available⟩, member, kept⟩ := List.mem_filterMap.mp inside
  by_cases worthless : available ≤ 0
  · simp [worthless] at kept
  · have positive : 0 < available := not_le.mp worthless
    have found : tally.available.lookup skill = some available :=
      lookup_of_mem balanced.distinctSkills member
    have within := balanced.within skill
    rw [found, Option.getD_some] at within
    simp only [worthless, if_false, Option.some.injEq] at kept
    subst kept
    constructor
    · exact le_toFixed (onGrid_zero _) (div_nonneg within.1 positive.le)
    · exact toFixed_le (onGrid_one _) ((div_le_one positive).mpr within.2)

/-- A report is made of whatever is within its maximum, under any proper weights. -/
theorem rollUpSkillScores_ok {perQuestion : List (QuestionSkillScore SkillId)}
    {weights : SkillWeights SkillId} (proper : ProperWeights weights)
    (inRange : ∀ question ∈ perQuestion, InRange question) :
    ∃ rolled, rollUpSkillScores perQuestion weights = .ok rolled ∧
      ∀ entry ∈ rolled, 0 ≤ entry.2 ∧ entry.2 ≤ 1 := by
  have start : Balanced (⟨[], []⟩ : Tally SkillId) := ⟨List.nodup_nil, by simp⟩
  have anyQuestion : ∀ (before : Tally SkillId) (question : QuestionSkillScore SkillId),
      Balanced before → InRange question →
      ∃ after, addQuestion weights before question = .ok after ∧ Balanced after :=
    fun _ _ kept fit => addQuestion_balanced proper kept fit
  obtain ⟨tally, run, balanced⟩ := foldlM_ok anyQuestion inRange start
  refine ⟨proportions tally, ?_, proportions_bounds balanced⟩
  rw [rollUpSkillScores, run]
  rfl

end Assaybank.Domain
