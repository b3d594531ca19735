import Assaybank.Contracts.QuestionInput
import Assaybank.Domain.KindContent

/-!
Owns the content of a question version (`packages/db/src/version-content.ts`): what a version
holds without identifiers or timestamps, and what a new version inherits from the one before it.

It also owns the counts the kind rule reads from stored content
(`apps/api/src/questions/kind-content.ts`).
-/

namespace Assaybank.Db

open Assaybank.Runtime Assaybank.Contracts Assaybank.Domain

/-- One MCQ option's content. -/
structure McqOptionContent where
  bodyMd : JsString
  isCorrect : Bool
  scoreDelta : Option Decimal
  rationaleMd : Option JsString
deriving DecidableEq

/-- The execution spec's content. -/
structure CodingSpecContent where
  allowedLanguages : List JsString
  starterCode : List (JsString × JsString)
  solutionCode : List (JsString × JsString)
  timeLimitMs : Int
  memoryLimitKb : Int
  gradingMode : GradingMode
  checkerCode : Option JsString
  fixtureSql : Option JsString
deriving DecidableEq

/-- One test case's content. -/
structure TestCaseContent where
  label : Option JsString
  stdin : JsString
  expectedStdout : Option JsString
  args : Option (List JsString)
  assertionCode : Option JsString
  isSample : Bool
  weight : Decimal
deriving DecidableEq

/-- One short-answer key's content. -/
structure AnswerKeyContent where
  matchType : MatchType
  pattern : JsString
  tolerance : Option Decimal
  score : Decimal
deriving DecidableEq

/-- Everything a version row and its four child tables hold. -/
structure VersionContent where
  locale : JsString
  promptMd : JsString
  explanationMd : Option JsString
  difficulty : Int
  estSeconds : Int
  maxScore : Decimal
  negativeScore : Decimal
  options : List McqOptionContent
  codingSpec : Option CodingSpecContent
  testCases : List TestCaseContent
  answerKeys : List AnswerKeyContent
deriving DecidableEq

/-! ### The counts of stored content -/

/-- `(text ?? '').trim() === ''`. -/
def isBlankText (text : Option JsString) : Bool := trim (text.getD []) == []

def shapeOfContent (content : VersionContent) : KindContentShape where
  optionCount := content.options.length
  correctOptionCount := (content.options.filter McqOptionContent.isCorrect).length
  hasCodingSpec := content.codingSpec.isSome
  hasFixtureSql := !isBlankText (content.codingSpec.bind CodingSpecContent.fixtureSql)
  testCaseCount := content.testCases.length
  hiddenTestCaseCount := (content.testCases.filter fun c => !c.isSample).length
  answerKeyCount := content.answerKeys.length
  gradingMode := content.codingSpec.map fun spec => js spec.gradingMode.name
  casesWithoutAssertion := (content.testCases.filter fun c => isBlankText c.assertionCode).length

/-! ### Copy-forward

The schema's own column defaults stand for the fields a first version may omit.
-/

def DEFAULT_LOCALE : JsString := js "en"
def DEFAULT_EST_SECONDS : Int := 120
def DEFAULT_MAX_SCORE : Decimal := ⟨1, 0, by decide⟩
private theorem zero_reduced : (0 : Int) = 0 ∧ (0 : Int) = 0 ∨ (0 : Int) % 10 ≠ 0 := .inl ⟨rfl, rfl⟩

def DEFAULT_NEGATIVE_SCORE : Decimal := ⟨0, 0, zero_reduced⟩
def DEFAULT_TIME_LIMIT_MS : Int := 5000
def DEFAULT_MEMORY_LIMIT_KB : Int := 262144
def DEFAULT_GRADING_MODE : GradingMode := .testCases
def DEFAULT_TEST_CASE_WEIGHT : Decimal := ⟨1, 0, by decide⟩
def DEFAULT_ANSWER_KEY_SCORE : Decimal := ⟨1, 0, by decide⟩

/-- The fields a first version must supply. -/
def FIRST_VERSION_FIELDS : List JsString := [js "prompt_md", js "difficulty"]

/-- The fields an input cannot supply and no previous version can lend. -/
def missingFirstVersionFields (prior : Option VersionContent) (input : QuestionVersionInput) :
    List JsString :=
  if prior.isSome then []
  else
    FIRST_VERSION_FIELDS.filter fun field =>
      (field == js "prompt_md" && input.promptMd.isNone) ||
        (field == js "difficulty" && input.difficulty.isNone)

def optionFrom (input : McqOptionInput) : McqOptionContent :=
  ⟨input.bodyMd, input.isCorrect, input.scoreDelta.join, input.rationaleMd.join⟩

def testCaseFrom (input : TestCaseInput) : TestCaseContent where
  label := input.label.join
  stdin := input.stdin
  expectedStdout := input.expectedStdout.join
  args := input.args.join
  assertionCode := input.assertionCode.join
  isSample := input.isSample
  weight := input.weight.getD DEFAULT_TEST_CASE_WEIGHT

def answerKeyFrom (input : AnswerKeyInput) : AnswerKeyContent :=
  ⟨input.matchType, input.pattern, input.tolerance.join,
    input.score.getD DEFAULT_ANSWER_KEY_SCORE⟩

/-- The spec a patch is laid over when there was none. -/
def emptyCodingSpec : CodingSpecContent where
  allowedLanguages := []
  starterCode := []
  solutionCode := []
  timeLimitMs := DEFAULT_TIME_LIMIT_MS
  memoryLimitKb := DEFAULT_MEMORY_LIMIT_KB
  gradingMode := DEFAULT_GRADING_MODE
  checkerCode := none
  fixtureSql := none

/-- The execution spec after the patch: untouched when it is not named, removed when it is null. -/
def mergeCodingSpec (prior : Option CodingSpecContent) :
    Option (Option CodingSpecInput) → Option CodingSpecContent
  | none => prior
  | some none => none
  | some (some patch) =>
      let base := prior.getD emptyCodingSpec
      some
        { allowedLanguages := patch.allowedLanguages
          starterCode := patch.starterCode.getD base.starterCode
          solutionCode := patch.solutionCode.getD base.solutionCode
          timeLimitMs := patch.timeLimitMs.getD base.timeLimitMs
          memoryLimitKb := patch.memoryLimitKb.getD base.memoryLimitKb
          gradingMode := patch.gradingMode.getD base.gradingMode
          checkerCode := patch.checkerCode.getD base.checkerCode
          fixtureSql := patch.fixtureSql.getD base.fixtureSql }

/-- Lays a version patch over the previous version. `none` is the refusal of a first version
without its prompt or difficulty, and of a difficulty outside the scale. -/
def mergeVersionContent (prior : Option VersionContent) (input : QuestionVersionInput) :
    Option VersionContent :=
  match input.promptMd.or (prior.map VersionContent.promptMd),
      input.difficulty.or (prior.map VersionContent.difficulty) with
  | some promptMd, some difficulty =>
      if difficulty < MIN_DIFFICULTY ∨ MAX_DIFFICULTY < difficulty then none
      else some
        { locale := input.locale.getD (prior.elim DEFAULT_LOCALE VersionContent.locale)
          promptMd := promptMd
          explanationMd := input.explanationMd.getD (prior.bind VersionContent.explanationMd)
          difficulty := difficulty
          estSeconds := input.estSeconds.getD (prior.elim DEFAULT_EST_SECONDS VersionContent.estSeconds)
          maxScore := input.maxScore.getD (prior.elim DEFAULT_MAX_SCORE VersionContent.maxScore)
          negativeScore :=
            input.negativeScore.getD (prior.elim DEFAULT_NEGATIVE_SCORE VersionContent.negativeScore)
          options :=
            (input.options.map fun options => options.map optionFrom).getD
              (prior.elim [] VersionContent.options)
          codingSpec := mergeCodingSpec (prior.bind VersionContent.codingSpec) input.codingSpec
          testCases :=
            (input.testCases.map fun cases => cases.map testCaseFrom).getD
              (prior.elim [] VersionContent.testCases)
          answerKeys :=
            (input.answerKeys.map fun keys => keys.map answerKeyFrom).getD
              (prior.elim [] VersionContent.answerKeys) }
  | _, _ => none

end Assaybank.Db
