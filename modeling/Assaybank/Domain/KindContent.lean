import Assaybank.Contracts.Question

/-!
Owns the rule of what each question kind may and must carry
(`packages/core-domain/src/kind-content.ts`).

The rule reads counts, not rows. A draft is held to what the kind can never use, a
publication also to what the kind still needs.
-/

namespace Assaybank.Domain

open Assaybank.Runtime Assaybank.Contracts

/-- What the rule needs to know about a version's content. -/
structure KindContentShape where
  optionCount : Nat
  correctOptionCount : Nat
  hasCodingSpec : Bool
  hasFixtureSql : Bool
  testCaseCount : Nat
  hiddenTestCaseCount : Nat
  answerKeyCount : Nat
  gradingMode : Option JsString
  casesWithoutAssertion : Nat
deriving DecidableEq

inductive KindContentSeverity where
  | wrongKind
  | incomplete
deriving DecidableEq

inductive KindContentField where
  | options
  | codingSpec
  | testCases
  | answerKeys
deriving DecidableEq

def KindContentField.name : KindContentField → String
  | .options => "options"
  | .codingSpec => "coding_spec"
  | .testCases => "test_cases"
  | .answerKeys => "answer_keys"

structure KindContentIssue where
  severity : KindContentSeverity
  field : KindContentField
  message : JsString
deriving DecidableEq

/-- `draft` checks what can never be right; `publish` also checks what is still missing. -/
inductive KindContentStage where
  | draft
  | publish
deriving DecidableEq

/-- One issue when a condition holds. -/
def issueWhen (condition : Bool) (severity : KindContentSeverity) (field : KindContentField)
    (message : String) : List KindContentIssue :=
  if condition then [⟨severity, field, js message⟩] else []

def wrong (condition : Bool) (field : KindContentField) (message : String) :
    List KindContentIssue :=
  issueWhen condition .wrongKind field message

def missing (stage : KindContentStage) (condition : Bool) (field : KindContentField)
    (message : String) : List KindContentIssue :=
  issueWhen (stage == .publish && condition) .incomplete field message

def isChoice (kind : QuestionKind) : Bool := CHOICE_KINDS.contains kind

def isCode (kind : QuestionKind) : Bool := CODE_KINDS.contains kind

/-- Content the kind can never carry. -/
def wrongContent (kind : QuestionKind) (shape : KindContentShape) : List KindContentIssue :=
  wrong (!isChoice kind && decide (0 < shape.optionCount)) .options
      s!"a {kind.name} question has no options; only choice questions do" ++
  wrong (!isCode kind && shape.hasCodingSpec) .codingSpec
      s!"a {kind.name} question has no execution spec; only coding and sql do" ++
  wrong (!isCode kind && decide (0 < shape.testCaseCount)) .testCases
      s!"a {kind.name} question has no test cases; only coding and sql do" ++
  wrong (kind != .shortAnswer && decide (0 < shape.answerKeyCount)) .answerKeys
      s!"a {kind.name} question has no answer keys; only short_answer does" ++
  wrong (kind == .coding && shape.hasFixtureSql) .codingSpec
      "fixture_sql belongs to sql questions; a coding question has none"

/-- What a question run against test cases needs before it is published. -/
def missingCode (stage : KindContentStage) (kind : QuestionKind) (shape : KindContentShape) :
    List KindContentIssue :=
  missing stage (!shape.hasCodingSpec) .codingSpec
      s!"a {kind.name} question needs an execution spec" ++
  missing stage (shape.hiddenTestCaseCount < 1) .testCases
      s!"a {kind.name} question needs at least one hidden test case; sample cases are visible to the candidate" ++
  missing stage (kind == .sql && !shape.hasFixtureSql) .codingSpec
      "an sql question needs fixture_sql — the database the query runs against" ++
  missing stage
      (shape.gradingMode == some (js "unit_tests") && decide (0 < shape.casesWithoutAssertion))
      .testCases
      s!"a {kind.name} question graded by unit tests needs assertion_code on every case; {shape.casesWithoutAssertion} has none"

/-- Content the kind needs, checked only when it is about to become immutable. -/
def missingContent (stage : KindContentStage) (kind : QuestionKind) (shape : KindContentShape) :
    List KindContentIssue :=
  match kind with
  | .trueFalse =>
      missing stage (shape.optionCount != 2) .options
          s!"a true_false question has exactly two options, not {shape.optionCount}" ++
      missing stage (shape.correctOptionCount != 1) .options
          "a true_false question has exactly one correct option"
  | .mcqSingle =>
      missing stage (shape.optionCount < 2) .options
          "a single-answer question needs at least two options" ++
      missing stage (shape.correctOptionCount != 1) .options
          s!"a single-answer question has exactly one correct option, not {shape.correctOptionCount}"
  | .mcqMulti =>
      missing stage (shape.optionCount < 2) .options
          "a multiple-answer question needs at least two options" ++
      missing stage (shape.correctOptionCount < 1) .options
          "a multiple-answer question needs at least one correct option"
  | .shortAnswer =>
      missing stage (shape.answerKeyCount < 1) .answerKeys
          "a short_answer question needs at least one answer key to be graded"
  | .coding => missingCode stage .coding shape
  | .sql => missingCode stage .sql shape
  | .subjective => []
  | .systemDesign => []

/-- Every problem with this content for this kind at this stage. Empty means acceptable. -/
def validateKindContent (kind : QuestionKind) (shape : KindContentShape)
    (stage : KindContentStage) : List KindContentIssue :=
  wrongContent kind shape ++ missingContent stage kind shape

/-! ### The two stages -/

@[simp] theorem issueWhen_eq_nil {condition : Bool} {severity : KindContentSeverity}
    {field : KindContentField} {message : String} :
    issueWhen condition severity field message = [] ↔ condition = false := by
  unfold issueWhen
  split <;> simp_all

private theorem missing_draft (condition : Bool) (field : KindContentField) (message : String) :
    missing .draft condition field message = [] := by
  simp [missing]

theorem missingContent_draft (kind : QuestionKind) (shape : KindContentShape) :
    missingContent .draft kind shape = [] := by
  cases kind <;> simp [missingContent, missingCode, missing_draft]

/-- What may be published may be kept as a draft. -/
theorem validateKindContent_draft_of_publish {kind : QuestionKind} {shape : KindContentShape}
    (publishable : validateKindContent kind shape .publish = []) :
    validateKindContent kind shape .draft = [] := by
  unfold validateKindContent at publishable ⊢
  rw [List.append_eq_nil_iff] at publishable
  rw [publishable.1, missingContent_draft, List.nil_append]

end Assaybank.Domain
