import Assaybank.Contracts.Question
import Assaybank.Library.TextRules
import Assaybank.Runtime.Lines

/-!
Owns what an author sends about a question (`packages/contracts/src/questions.ts`): the bodies
of the writing routes and their schemas.

An absent field is `none`; a nullable field that is named and cleared is `some none`.
-/

namespace Assaybank.Contracts

open Assaybank.Runtime Assaybank.Library

/-- The body of `POST /questions`. -/
structure CreateQuestion where
  kind : QuestionKind
  sourceLicense : Option JsString
  externalRef : Option JsString
deriving DecidableEq

/-- The statuses a `PATCH` may name. Publishing is a route of its own. -/
inductive PatchableStatus where
  | draft
  | review
  | retired
deriving DecidableEq

def PatchableStatus.name : PatchableStatus → String
  | .draft => "draft"
  | .review => "review"
  | .retired => "retired"

/-- The body of `PATCH /questions/{id}`. -/
structure PatchQuestion where
  status : Option PatchableStatus
  archived : Option Bool
deriving DecidableEq

structure McqOptionInput where
  bodyMd : JsString
  isCorrect : Bool
  scoreDelta : Option (Option Decimal)
  rationaleMd : Option (Option JsString)

structure CodingSpecInput where
  allowedLanguages : List JsString
  starterCode : Option (List (JsString × JsString))
  solutionCode : Option (List (JsString × JsString))
  timeLimitMs : Option Int
  memoryLimitKb : Option Int
  gradingMode : Option GradingMode
  checkerCode : Option (Option JsString)
  fixtureSql : Option (Option JsString)

structure TestCaseInput where
  label : Option (Option JsString)
  stdin : JsString
  expectedStdout : Option (Option JsString)
  args : Option (Option (List JsString))
  assertionCode : Option (Option JsString)
  isSample : Bool
  weight : Option Decimal

structure AnswerKeyInput where
  matchType : MatchType
  pattern : JsString
  tolerance : Option (Option Decimal)
  score : Option Decimal

/-- The content of a version, as an author supplies it. -/
structure QuestionVersionInput where
  locale : Option JsString
  promptMd : Option JsString
  explanationMd : Option (Option JsString)
  difficulty : Option Int
  estSeconds : Option Int
  maxScore : Option Decimal
  negativeScore : Option Decimal
  options : Option (List McqOptionInput)
  codingSpec : Option (Option CodingSpecInput)
  testCases : Option (List TestCaseInput)
  answerKeys : Option (List AnswerKeyInput)

/-- A `uuid` in its text form. -/
abbrev Uuid := JsString

abbrev SkillId := Uuid

/-- One skill a question measures, as `PUT /questions/{id}/skills` writes it. -/
structure QuestionSkillInput where
  skillId : SkillId
  weight : Decimal
deriving DecidableEq

/-! ### Schemas -/

def CreateQuestionSchema : Schema CreateQuestion :=
  .strictObject
    (.both (.field (js "kind") QuestionKindSchema)
      (.both (.optional (js "source_license") SourceLicenseSchema)
        (.optional (js "external_ref") ExternalRefSchema)))
    { toFun := fun (kind, licence, external) => ⟨kind, licence, external⟩
      invFun := fun q => (q.kind, q.sourceLicense, q.externalRef)
      left_inv := fun _ => rfl
      right_inv := fun _ => rfl }

def PatchableStatusSchema : Schema PatchableStatus :=
  .enumeration [.draft, .review, .retired] (fun status => js status.name)
    (fun status => by cases status <;> decide)

def PatchQuestionSchema : Schema PatchQuestion :=
  (Schema.strictObject
    (.both (.optional (js "status") PatchableStatusSchema) (.optional (js "archived") .bool))
    { toFun := fun (status, archived) => PatchQuestion.mk status archived
      invFun := fun p => (p.status, p.archived)
      left_inv := fun _ => rfl
      right_inv := fun _ => rfl }).refine fun patch =>
    if patch.status.isSome || patch.archived.isSome then []
    else [⟨[], .custom (js "Name at least one of `status` or `archived`.")⟩]

def McqOptionInputSchema : Schema McqOptionInput :=
  .strictObject
    (.both (.field (js "body_md") (.string [minLength 1, maxLength MAX_PROMPT_LENGTH]))
      (.both (.withDefault (js "is_correct") .bool false (Schema.accepts_bool _))
        (.both (.optional (js "score_delta") (.nullable (scoreValue MIN_SCORE_VALUE)))
          (.optional (js "rationale_md") (.nullable (.string [maxLength MAX_EXPLANATION_LENGTH]))))))
    { toFun := fun (body, correct, delta, rationale) => ⟨body, correct, delta, rationale⟩
      invFun := fun o => (o.bodyMd, o.isCorrect, o.scoreDelta, o.rationaleMd)
      left_inv := fun _ => rfl
      right_inv := fun _ => rfl }

def CodingSpecInputSchema : Schema CodingSpecInput :=
  .strictObject
    (.both (.field (js "allowed_languages")
        (.array (.string [minLength 1, maxLength 50]) [minItems 1, maxItems 20]))
      (.both (.optional (js "starter_code") .record)
        (.both (.optional (js "solution_code") .record)
          (.both (.optional (js "time_limit_ms") (safeInteger [minInt 100, maxInt 60000]))
            (.both (.optional (js "memory_limit_kb") (safeInteger [minInt 1024, maxInt 2097152]))
              (.both (.optional (js "grading_mode") GradingModeSchema)
                (.both (.optional (js "checker_code") (.nullable (.string [])))
                  (.optional (js "fixture_sql") (.nullable (.string []))))))))))
    { toFun := fun (languages, starter, solution, time, memory, mode, checker, fixture) =>
        ⟨languages, starter, solution, time, memory, mode, checker, fixture⟩
      invFun := fun s => (s.allowedLanguages, s.starterCode, s.solutionCode, s.timeLimitMs,
        s.memoryLimitKb, s.gradingMode, s.checkerCode, s.fixtureSql)
      left_inv := fun _ => rfl
      right_inv := fun _ => rfl }

def TestCaseInputSchema : Schema TestCaseInput :=
  .strictObject
    (.both (.optional (js "label") (.nullable (.string [maxLength 200])))
      (.both (.withDefault (js "stdin") (.string []) [] (Schema.accepts_anyString _))
        (.both (.optional (js "expected_stdout") (.nullable (.string [])))
          (.both (.optional (js "args") (.nullable (.array (.string []) [])))
            (.both (.optional (js "assertion_code")
                (.nullable (.string [maxLength MAX_ASSERTION_LENGTH])))
              (.both (.withDefault (js "is_sample") .bool false (Schema.accepts_bool _))
                (.optional (js "weight") (scoreValue MIN_CASE_WEIGHT))))))))
    { toFun := fun (label, stdin, expected, args, assertion, sample, weight) =>
        ⟨label, stdin, expected, args, assertion, sample, weight⟩
      invFun := fun c =>
        (c.label, c.stdin, c.expectedStdout, c.args, c.assertionCode, c.isSample, c.weight)
      left_inv := fun _ => rfl
      right_inv := fun _ => rfl }

def AnswerKeyInputSchema : Schema AnswerKeyInput :=
  .strictObject
    (.both (.field (js "match_type") MatchTypeSchema)
      (.both (.field (js "pattern") (.string [minLength 1, maxLength 2000]))
        (.both (.optional (js "tolerance") (.nullable (.number [minValue 0])))
          (.optional (js "score") (scoreValue MIN_SCORE_VALUE)))))
    { toFun := fun (type, pattern, tolerance, score) => ⟨type, pattern, tolerance, score⟩
      invFun := fun k => (k.matchType, k.pattern, k.tolerance, k.score)
      left_inv := fun _ => rfl
      right_inv := fun _ => rfl }

def QuestionVersionInputSchema : Schema QuestionVersionInput :=
  .strictObject
    (.both (.optional (js "locale") (.string [minLength 2, maxLength 35]))
      (.both (.optional (js "prompt_md") (.string [minLength 1, maxLength MAX_PROMPT_LENGTH]))
        (.both (.optional (js "explanation_md")
            (.nullable (.string [maxLength MAX_EXPLANATION_LENGTH])))
          (.both (.optional (js "difficulty") DifficultySchema)
            (.both (.optional (js "est_seconds") (safeInteger [minInt 1, maxInt 86400]))
              (.both (.optional (js "max_score") (scoreValue 0))
                (.both (.optional (js "negative_score") (scoreValue 0))
                  (.both (.optional (js "options")
                      (.array McqOptionInputSchema [maxItems MAX_OPTIONS]))
                    (.both (.optional (js "coding_spec") (.nullable CodingSpecInputSchema))
                      (.both (.optional (js "test_cases")
                          (.array TestCaseInputSchema [maxItems MAX_TEST_CASES]))
                        (.optional (js "answer_keys")
                          (.array AnswerKeyInputSchema [maxItems MAX_ANSWER_KEYS]))))))))))))
    { toFun := fun (locale, prompt, explanation, difficulty, seconds, score, negative, options,
          spec, cases, keys) =>
        ⟨locale, prompt, explanation, difficulty, seconds, score, negative, options, spec, cases,
          keys⟩
      invFun := fun v => (v.locale, v.promptMd, v.explanationMd, v.difficulty, v.estSeconds,
        v.maxScore, v.negativeScore, v.options, v.codingSpec, v.testCases, v.answerKeys)
      left_inv := fun _ => rfl
      right_inv := fun _ => rfl }

/-- `^[0-9a-fA-F]{8}-[0-9a-fA-F]{4}-[1-8][0-9a-fA-F]{3}-[89abAB][0-9a-fA-F]{3}-[0-9a-fA-F]{12}$`,
or the nil or the max identifier. -/
def isUuid (s : JsString) : Bool :=
  s == js "00000000-0000-0000-0000-000000000000" ||
    s == js "ffffffff-ffff-ffff-ffff-ffffffffffff" ||
      match splitOn (unit '-') s with
      | [first, second, third, fourth, fifth] =>
          [first, second, third, fourth, fifth].all (fun group => group.all isHexDigit) &&
            [first.length, second.length, third.length, fourth.length, fifth.length] ==
              [8, 4, 4, 4, 12] &&
                third.head?.any (fun c => unit '1' ≤ c && c ≤ unit '8') &&
                  fourth.head?.any fun c => (js "89abAB").contains c
      | _ => false

private theorem ascii_of_hexDigit {c : CodeUnit} (digit : isHexDigit c = true) :
    0 < c ∧ c < 128 := by
  simp only [isHexDigit, isDigit, Bool.or_eq_true, Bool.and_eq_true, decide_eq_true_eq,
    UInt16.le_iff_toNat_le, UInt16.lt_iff_toNat_lt] at digit ⊢
  have zero : (unit '0').toNat = 48 := rfl
  have nine : (unit '9').toNat = 57 := rfl
  have a : (unit 'a').toNat = 97 := rfl
  have f : (unit 'f').toNat = 102 := rfl
  have A : (unit 'A').toNat = 65 := rfl
  have F : (unit 'F').toNat = 70 := rfl
  simp only [UInt16.reduceToNat]
  omega

theorem isAsciiText_of_isUuid {s : JsString} (uuid : isUuid s = true) :
    isAsciiText s = true := by
  unfold isUuid at uuid
  rw [Bool.or_eq_true, Bool.or_eq_true] at uuid
  rcases uuid with (nil | max) | grouped
  · rw [beq_iff_eq.mp nil]
    decide
  · rw [beq_iff_eq.mp max]
    decide
  · split at grouped
    · rename_i first second third fourth fifth groups
      simp only [Bool.and_eq_true] at grouped
      have digits := List.all_eq_true.mp grouped.1.1.1
      have whole : s = joinWith [unit '-'] [first, second, third, fourth, fifth] := by
        rw [← groups, joinWith, splitOn, List.intercalate_splitOn]
      rw [isAsciiText, List.all_eq_true]
      intro c inside
      rw [whole] at inside
      rw [Bool.and_eq_true, decide_eq_true_iff, decide_eq_true_iff]
      rcases mem_of_mem_joinWith inside with rfl | ⟨group, member, unit⟩
      · decide
      · exact ascii_of_hexDigit (List.all_eq_true.mp (digits group member) c unit)
    · cases grouped

def UuidSchema : Schema Uuid := .string [⟨isUuid, .invalidFormat (js "Invalid UUID")⟩]

def QuestionSkillInputSchema : Schema QuestionSkillInput :=
  .strictObject
    (.both (.field (js "skill_id") UuidSchema)
      (.field (js "weight") (.number [minValue 0, maxValue MAX_WEIGHT_VALUE, twoDecimals])))
    { toFun := fun (skillId, weight) => ⟨skillId, weight⟩
      invFun := fun s => (s.skillId, s.weight)
      left_inv := fun _ => rfl
      right_inv := fun _ => rfl }

def PutQuestionSkillsSchema : Schema (List QuestionSkillInput) :=
  (Schema.array QuestionSkillInputSchema [maxItems 50]).refine fun skills =>
    if (skills.map QuestionSkillInput.skillId).Nodup then []
    else [⟨[], .custom (js "Each skill may appear once.")⟩]

end Assaybank.Contracts
