import Assaybank.Library.Schema
import Assaybank.Runtime.Number

/-!
Owns the vocabulary of the question bank (`packages/contracts/src/questions.ts` and
`taxonomy.ts`): kinds, statuses, bounds, and the schemas every boundary shares.
-/

namespace Assaybank.Contracts

open Assaybank.Runtime Assaybank.Library

inductive QuestionKind where
  | mcqSingle
  | mcqMulti
  | trueFalse
  | shortAnswer
  | coding
  | sql
  | subjective
  | systemDesign
deriving DecidableEq, Repr

def QuestionKind.name : QuestionKind → String
  | .mcqSingle => "mcq_single"
  | .mcqMulti => "mcq_multi"
  | .trueFalse => "true_false"
  | .shortAnswer => "short_answer"
  | .coding => "coding"
  | .sql => "sql"
  | .subjective => "subjective"
  | .systemDesign => "system_design"

def QUESTION_KINDS : List QuestionKind :=
  [.mcqSingle, .mcqMulti, .trueFalse, .shortAnswer, .coding, .sql, .subjective, .systemDesign]

/-- The kinds answered by choosing among presented options. -/
def CHOICE_KINDS : List QuestionKind := [.mcqSingle, .mcqMulti, .trueFalse]

/-- The kinds answered by writing and running code. -/
def CODE_KINDS : List QuestionKind := [.coding, .sql]

/-- The authoring lifecycle state of a question. -/
inductive QuestionStatus where
  | draft
  | review
  | published
  | retired
deriving DecidableEq, Repr

def QuestionStatus.name : QuestionStatus → String
  | .draft => "draft"
  | .review => "review"
  | .published => "published"
  | .retired => "retired"

def QUESTION_STATUSES : List QuestionStatus := [.draft, .review, .published, .retired]

/-- How a submission to a code question is judged. -/
inductive GradingMode where
  | testCases
  | unitTests
  | customChecker
deriving DecidableEq

def GradingMode.name : GradingMode → String
  | .testCases => "test_cases"
  | .unitTests => "unit_tests"
  | .customChecker => "custom_checker"

/-- How an answer is compared with a key. -/
inductive MatchType where
  | exact
  | ci
  | regex
  | numericTolerance
deriving DecidableEq

def MatchType.name : MatchType → String
  | .exact => "exact"
  | .ci => "ci"
  | .regex => "regex"
  | .numericTolerance => "numeric_tolerance"

/-! ### Bounds -/

def MIN_DIFFICULTY : Int := 1
def MAX_DIFFICULTY : Int := 5
def MAX_PROMPT_LENGTH : Nat := 64000
def MAX_EXPLANATION_LENGTH : Nat := 64000
def MAX_OPTIONS : Nat := 26
def MAX_TEST_CASES : Nat := 200
def MAX_ANSWER_KEYS : Nat := 50
def MAX_ASSERTION_LENGTH : Nat := 8000

/-- The largest magnitude a `numeric(6,2)` column holds. -/
def MAX_SCORE_VALUE : Decimal := ⟨999999, -2, by decide⟩

/-- `-MAX_SCORE_VALUE`. -/
def MIN_SCORE_VALUE : Decimal := ⟨-999999, -2, by decide⟩

/-- The largest magnitude a `numeric(4,2)` column holds. -/
def MAX_WEIGHT_VALUE : Decimal := ⟨9999, -2, by decide⟩

/-- The smallest weight of a test case. -/
def MIN_CASE_WEIGHT : Decimal := ⟨1, -2, by decide⟩

/-- The largest integer a schema's `int` admits. -/
def MAX_SAFE_INTEGER : Int := 9007199254740991

/-- The tolerance of `hasAtMostTwoDecimals`, `1e-6`. -/
def DECIMALS_TOLERANCE : ℚ := Binary64.nearest (1 / 10 ^ 6)

/-- True when `value` has at most two decimal places, to the tolerance. The arithmetic is that of
doubles; the difference of two infinities compares with nothing. -/
def hasAtMostTwoDecimals (value : Decimal) : Bool :=
  match JsDouble.ofRat (Binary64.nearest value.toRat * 100) with
  | .finite scaled => decide (|Binary64.nearest (scaled - round scaled)| < DECIMALS_TOLERANCE)
  | _ => false

/-! ### Checks -/

/-- `.min(n)` of a string, an array or a list of characters. -/
def minLength (n : Nat) : Check JsString := ⟨fun s => decide (n ≤ s.length), .tooSmall⟩

def maxLength (n : Nat) : Check JsString := ⟨fun s => decide (s.length ≤ n), .tooBig⟩

def minItems (n : Nat) : Check Nat := ⟨fun length => decide (n ≤ length), .tooSmall⟩

def maxItems (n : Nat) : Check Nat := ⟨fun length => decide (length ≤ n), .tooBig⟩

def minInt (n : Int) : Check Int := ⟨fun value => decide (n ≤ value), .tooSmall⟩

def maxInt (n : Int) : Check Int := ⟨fun value => decide (value ≤ n), .tooBig⟩

def minValue (n : Decimal) : Check Decimal := ⟨fun value => decide (n ≤ value), .tooSmall⟩

def maxValue (n : Decimal) : Check Decimal := ⟨fun value => decide (value ≤ n), .tooBig⟩

def twoDecimals : Check Decimal :=
  ⟨hasAtMostTwoDecimals, .custom (js "At most two decimal places.")⟩

/-- `z.number().int()` with further checks: the two bounds of a safe integer come first. -/
def safeInteger (checks : List (Check Int)) : Schema Int :=
  .integer (minInt (-MAX_SAFE_INTEGER) :: maxInt MAX_SAFE_INTEGER :: checks)

/-! ### Shared schemas -/

def QuestionKindSchema : Schema QuestionKind :=
  .enumeration QUESTION_KINDS (fun kind => js kind.name) (fun kind => by cases kind <;> decide)

def QuestionStatusSchema : Schema QuestionStatus :=
  .enumeration QUESTION_STATUSES (fun status => js status.name)
    (fun status => by cases status <;> decide)

def GradingModeSchema : Schema GradingMode :=
  .enumeration [.testCases, .unitTests, .customChecker] (fun mode => js mode.name)
    (fun mode => by cases mode <;> decide)

def MatchTypeSchema : Schema MatchType :=
  .enumeration [.exact, .ci, .regex, .numericTolerance] (fun type => js type.name)
    (fun type => by cases type <;> decide)

def DifficultySchema : Schema Int := safeInteger [minInt MIN_DIFFICULTY, maxInt MAX_DIFFICULTY]

/-- A value for a `numeric(6,2)` score column, within `[min, 9999.99]`, to the hundredth. -/
def scoreValue (min : Decimal) : Schema Decimal :=
  .number [minValue min, maxValue MAX_SCORE_VALUE, twoDecimals]

def SourceLicenseSchema : Schema JsString := .string [minLength 1, maxLength 100]

def ExternalRefSchema : Schema JsString := .string [minLength 1, maxLength 200]

/-- `[a-z0-9]`. -/
def isKeyUnit (c : CodeUnit) : Bool := isLower c || isDigit c

/-- `^[a-z0-9]+(?:[-.][a-z0-9]+)*$`: no empty segment between separators. -/
def isSkillKey (key : JsString) : Bool :=
  (key.splitOnP fun c => c == unit '-' || c == unit '.').all fun segment =>
    segment != [] && segment.all isKeyUnit

def SkillKeySchema : Schema JsString :=
  .string [minLength 1, maxLength 120,
    ⟨isSkillKey, .invalidFormat (js
      "a skill key is lower-case alphanumeric with . or - separators, e.g. sql.window-functions")⟩]

end Assaybank.Contracts
