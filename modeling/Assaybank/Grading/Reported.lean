import Assaybank.Contracts.Question
import Assaybank.Domain.SkillScores
import Assaybank.Grading.Score

/-!
Owns the way of a mark from its grader to the report of an attempt.

Contract: a maximum the schema accepts as a hundredth bounds every mark given under it, and the
roll-up takes every list of such marks (`marks_roll_up`).
-/

namespace Assaybank.Grading

open Assaybank.Runtime Assaybank.Library Assaybank.Contracts Assaybank.Domain

/-- A result of one of the graders, for a question worth `maxScore`. -/
inductive IsMark (engine : TextEngine) (maxScore score : ℚ) : Prop where
  | choice (selected correct : List JsString) (opts : McqScoringOptions)
      (maximum : opts.maxScore = .finite maxScore)
      (notSet : opts.allowNegativeTotal ≠ some true)
      (graded : gradeMcq selected correct opts = .ok score)
  | shortAnswer (answer : JsString) (keys : List AnswerKey)
      (graded : gradeShortAnswer engine answer keys (.finite maxScore) = .ok score)

/-- A maximum score as `scoreValue(0)` accepts it, exactly a hundredth. -/
structure Maximum where
  value : Decimal
  accepted : (scoreValue 0).Accepts value
  exact : IsHundredths value

/-- A marked question of an attempt. -/
structure MarkedQuestion (engine : TextEngine) (SkillId : Type) where
  skillIds : List SkillId
  maxScore : Maximum
  score : ℚ
  mark : IsMark engine maxScore.value.toRat score

/-- What the roll-up is given of it. -/
def MarkedQuestion.contribution {engine : TextEngine} {SkillId : Type}
    (question : MarkedQuestion engine SkillId) : QuestionSkillScore SkillId :=
  { skillIds := question.skillIds
    score := .finite question.score
    maxScore := .finite question.maxScore.value.toRat }

theorem mark_bounds {engine : TextEngine} {maxScore : Maximum} {score : ℚ}
    (mark : IsMark engine maxScore.value.toRat score) :
    0 ≤ score ∧ score ≤ maxScore.value.toRat := by
  have grid : OnGrid SCALE maxScore.value.toRat :=
    onGrid_of_isHundredths maxScore.exact (by decide)
  cases mark with
  | choice selected correct opts maximum notSet graded =>
      exact gradeMcq_bounds grid maximum notSet graded
  | shortAnswer answer keys graded => exact gradeShortAnswer_bounds grid graded

/-- Every mark is within its maximum, and a report can be made of any list of them. -/
theorem marks_roll_up (engine : TextEngine) (SkillId : Type) [DecidableEq SkillId] :
    (∀ (maxScore : Maximum) (score : ℚ), IsMark engine maxScore.value.toRat score →
      0 ≤ score ∧ score ≤ maxScore.value.toRat) ∧
    ∀ (questions : List (MarkedQuestion engine SkillId)) (weights : SkillWeights SkillId),
      ProperWeights weights →
      ∃ rolled, rollUpSkillScores (questions.map MarkedQuestion.contribution) weights = .ok rolled ∧
        ∀ entry ∈ rolled, 0 ≤ entry.2 ∧ entry.2 ≤ 1 := by
  constructor
  · intro maxScore score mark
    exact mark_bounds mark
  · intro questions weights proper
    apply rollUpSkillScores_ok proper
    intro contribution inside
    obtain ⟨question, _, rfl⟩ := List.mem_map.mp inside
    exact ⟨_, _, rfl, rfl, mark_bounds question.mark⟩

section Example

private def plainEngine : TextEngine where
  toLowerCase text := text.map lowerAscii
  regExp pattern _ := some fun text => decide (js "^(?:" ++ text ++ js ")$" = pattern)

private def oneMark : Maximum where
  value := 1
  accepted := by
    rw [scoreValue, Schema.number, Schema.accepts_scalar]
    decide +kernel
  exact := ⟨100, by decide +kernel⟩

/-- One of three options selected, all of them correct. -/
private def thirdOfAMark : MarkedQuestion plainEngine JsString where
  skillIds := [js "sql", js "joins", js "sql"]
  maxScore := oneMark
  score := 333333 / 1000000
  mark := by
    apply IsMark.choice [js "a"] [js "a", js "b", js "c"]
      { maxScore := .finite 1, negativeScore := .finite (1 / 4), partialCredit := true,
        allowNegativeTotal := .none }
    · decide +kernel
    · decide
    · decide +kernel

private def halfAMark : MarkedQuestion plainEngine JsString where
  skillIds := [js "sql"]
  maxScore := oneMark
  score := 1 / 2
  mark := by
    apply IsMark.shortAnswer (js " Left JOIN")
      [{ mode := .regex, expected := js "inner join", score := .none, options := .none },
        { mode := .caseInsensitive, expected := js "left join", score := some (.finite (1 / 2)),
          options := .none }]
    decide +kernel

theorem marks_roll_up_example :
    (0 ≤ thirdOfAMark.score ∧ thirdOfAMark.score ≤ thirdOfAMark.maxScore.value.toRat) ∧
    rollUpSkillScores ([thirdOfAMark, halfAMark].map MarkedQuestion.contribution)
        [(js "joins", .finite 2)] =
      .ok [(js "sql", 416667 / 1000000), (js "joins", 333333 / 1000000)] ∧
    ∃ rolled, rollUpSkillScores ([thirdOfAMark, halfAMark].map MarkedQuestion.contribution)
        [(js "joins", .finite 2)] = .ok rolled ∧ ∀ entry ∈ rolled, 0 ≤ entry.2 ∧ entry.2 ≤ 1 := by
  refine ⟨(marks_roll_up plainEngine JsString).1 _ _ thirdOfAMark.mark,
    by decide +kernel, ?_⟩
  apply (marks_roll_up plainEngine JsString).2
  intro entry inside
  cases List.mem_singleton.mp inside
  exact ⟨2, rfl, by norm_num⟩

end Example

end Assaybank.Grading
