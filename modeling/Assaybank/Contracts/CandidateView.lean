import Assaybank.Contracts.Question
import Assaybank.Domain.Deadline

/-!
Owns what a candidate is served of a question version (`packages/contracts/src/questions.ts`): the
version record, the four shapes of a candidate's view and `toCandidateView`.

Contract: two versions with the same public part have the same view exactly when, for the kind
`coding`, they have the same fixture too (`toCandidateView_eq_iff`).

It does not own the author's views, nor the schemas the views are described by.
-/

namespace Assaybank.Contracts

open Assaybank.Runtime Assaybank.Domain

/-- The kinds answered in prose. -/
def PROSE_KINDS : List QuestionKind := [.subjective, .systemDesign]

/-! ### The version record -/

structure McqOptionRecord where
  id : JsString
  ordinal : Int
  bodyMd : JsString
  isCorrect : Bool
  scoreDelta : Option Decimal
  rationaleMd : Option JsString

structure CodingSpecRecord where
  allowedLanguages : List JsString
  starterCode : List (JsString × JsString)
  solutionCode : List (JsString × JsString)
  timeLimitMs : Int
  memoryLimitKb : Int
  gradingMode : JsString
  checkerCode : Option JsString
  fixtureSql : Option JsString

structure TestCaseRecord where
  id : JsString
  ordinal : Int
  label : Option JsString
  stdin : JsString
  expectedStdout : Option JsString
  args : Option (List JsString)
  assertionCode : Option JsString
  isSample : Bool
  weight : Decimal

structure AnswerKeyRecord where
  id : JsString
  matchType : JsString
  pattern : JsString
  tolerance : Option Decimal
  score : Decimal

/-- One version of one question, with every child row it owns. -/
structure QuestionVersionRecord where
  id : JsString
  questionId : JsString
  versionNo : Int
  locale : JsString
  promptMd : JsString
  explanationMd : Option JsString
  difficulty : Int
  estSeconds : Int
  maxScore : Decimal
  negativeScore : Decimal
  publishedAt : Option EpochMillis
  createdBy : Option JsString
  createdAt : EpochMillis
  options : List McqOptionRecord
  codingSpec : Option CodingSpecRecord
  testCases : List TestCaseRecord
  answerKeys : List AnswerKeyRecord

/-! ### The candidate's view -/

/-- One option as a candidate sees it. -/
structure CandidateOption where
  id : JsString
  ordinal : Int
  bodyMd : JsString
deriving DecidableEq

/-- The fields every view carries. -/
structure CandidateCommon where
  questionVersionId : JsString
  promptMd : JsString
  estSeconds : Int
  maxScore : Decimal
  negativeScore : Decimal
deriving DecidableEq

/-- What a candidate needs to write and run code. -/
structure CandidateCodingBrief where
  allowedLanguages : List JsString
  starterCode : List (JsString × JsString)
  timeLimitMs : Int
  memoryLimitKb : Int
  fixtureSql : Option JsString
  sampleCaseCount : Nat
  hiddenCaseCount : Nat
deriving DecidableEq

/-- A version as served to a candidate, one shape for each group of kinds. -/
inductive CandidateQuestionView where
  | choice (common : CandidateCommon) (kind : QuestionKind) (options : List CandidateOption)
  | code (common : CandidateCommon) (kind : QuestionKind) (coding : CandidateCodingBrief)
  | prose (common : CandidateCommon) (kind : QuestionKind)
  | shortAnswer (common : CandidateCommon)
deriving DecidableEq

def isChoiceKind (kind : QuestionKind) : Bool := CHOICE_KINDS.contains kind

def isCodeKind (kind : QuestionKind) : Bool := CODE_KINDS.contains kind

def isProseKind (kind : QuestionKind) : Bool := PROSE_KINDS.contains kind

def candidateOption (option : McqOptionRecord) : CandidateOption :=
  ⟨option.id, option.ordinal, option.bodyMd⟩

/-- One turn of the loop that counts sample and hidden cases. -/
def countCase (counts : Nat × Nat) (testCase : TestCaseRecord) : Nat × Nat :=
  if testCase.isSample then (counts.1 + 1, counts.2) else (counts.1, counts.2 + 1)

/-- The brief of a version. Without a spec it has the limits the schema defaults to. -/
def candidateCodingBrief (version : QuestionVersionRecord) : CandidateCodingBrief :=
  let spec := version.codingSpec
  let counts := version.testCases.foldl countCase (0, 0)
  { allowedLanguages := spec.elim [] CodingSpecRecord.allowedLanguages
    starterCode := spec.elim [] CodingSpecRecord.starterCode
    timeLimitMs := spec.elim 5000 CodingSpecRecord.timeLimitMs
    memoryLimitKb := spec.elim 262144 CodingSpecRecord.memoryLimitKb
    fixtureSql := spec.elim none CodingSpecRecord.fixtureSql
    sampleCaseCount := counts.1
    hiddenCaseCount := counts.2 }

def toCandidateView (kind : QuestionKind) (version : QuestionVersionRecord) :
    CandidateQuestionView :=
  let common : CandidateCommon :=
    ⟨version.id, version.promptMd, version.estSeconds, version.maxScore, version.negativeScore⟩
  if isChoiceKind kind then .choice common kind (version.options.map candidateOption)
  else if isCodeKind kind then .code common kind (candidateCodingBrief version)
  else if isProseKind kind then .prose common kind
  else .shortAnswer common

/-- The fall-through serves `short_answer` and nothing else. -/
theorem kind_groups (kind : QuestionKind) :
    isChoiceKind kind ∨ isCodeKind kind ∨ isProseKind kind ∨ kind = .shortAnswer := by
  cases kind <;> decide

/-! ### The public part

Stated on the record, apart from the functions that serve it. A version without a spec stands for
one with the schema's own limits.
-/

/-- The fixture of a version, absent when it has no spec. -/
def QuestionVersionRecord.fixtureSql (version : QuestionVersionRecord) : Option JsString :=
  version.codingSpec.bind CodingSpecRecord.fixtureSql

/-- The languages, starter code and limits of a version. -/
def QuestionVersionRecord.limits (version : QuestionVersionRecord) :
    List JsString × List (JsString × JsString) × Int × Int :=
  match version.codingSpec with
  | none => ([], [], 5000, 262144)
  | some spec => (spec.allowedLanguages, spec.starterCode, spec.timeLimitMs, spec.memoryLimitKb)

/-- The two versions agree on what a candidate of a question of this kind may see. -/
structure SamePublicPart (kind : QuestionKind) (v w : QuestionVersionRecord) : Prop where
  id : v.id = w.id
  promptMd : v.promptMd = w.promptMd
  estSeconds : v.estSeconds = w.estSeconds
  maxScore : v.maxScore = w.maxScore
  negativeScore : v.negativeScore = w.negativeScore
  options : kind ∈ CHOICE_KINDS →
    v.options.map (fun o => (o.id, o.ordinal, o.bodyMd)) =
      w.options.map (fun o => (o.id, o.ordinal, o.bodyMd))
  limits : kind ∈ CODE_KINDS → v.limits = w.limits
  samples : kind ∈ CODE_KINDS →
    v.testCases.countP TestCaseRecord.isSample = w.testCases.countP TestCaseRecord.isSample
  hidden : kind ∈ CODE_KINDS →
    v.testCases.countP (fun c => !c.isSample) = w.testCases.countP (fun c => !c.isSample)
  fixture : kind = .sql → v.fixtureSql = w.fixtureSql

/-! ### Noninterference -/

private theorem countCase_foldl (cases : List TestCaseRecord) (samples hidden : Nat) :
    cases.foldl countCase (samples, hidden) =
      (samples + cases.countP TestCaseRecord.isSample,
        hidden + cases.countP (fun c => !c.isSample)) := by
  induction cases generalizing samples hidden with
  | nil => rfl
  | cons testCase rest inductionHypothesis =>
      show rest.foldl countCase (countCase (samples, hidden) testCase) = _
      by_cases sample : testCase.isSample
      · rw [countCase, if_pos sample, inductionHypothesis, List.countP_cons_of_pos sample,
          List.countP_cons_of_neg (by simp [sample])]
        simp only [Prod.mk.injEq, and_true]
        omega
      · rw [countCase, if_neg sample, inductionHypothesis, List.countP_cons_of_neg sample,
          List.countP_cons_of_pos (by simp [sample])]
        simp only [Prod.mk.injEq, true_and]
        omega

/-- The brief in terms of the public part. -/
theorem candidateCodingBrief_eq (version : QuestionVersionRecord) :
    candidateCodingBrief version =
      { allowedLanguages := version.limits.1
        starterCode := version.limits.2.1
        timeLimitMs := version.limits.2.2.1
        memoryLimitKb := version.limits.2.2.2
        fixtureSql := version.fixtureSql
        sampleCaseCount := version.testCases.countP TestCaseRecord.isSample
        hiddenCaseCount := version.testCases.countP (fun c => !c.isSample) } := by
  unfold candidateCodingBrief
  simp only [countCase_foldl, Nat.zero_add]
  unfold QuestionVersionRecord.limits QuestionVersionRecord.fixtureSql
  cases version.codingSpec with
  | none => rfl
  | some spec => rfl

/-- Of two versions with the same public part, the briefs differ in the fixture alone. -/
private theorem candidateCodingBrief_eq_iff {kind : QuestionKind} {v w : QuestionVersionRecord}
    (same : SamePublicPart kind v w) (isCode : kind ∈ CODE_KINDS) :
    candidateCodingBrief v = candidateCodingBrief w ↔ v.fixtureSql = w.fixtureSql := by
  rw [candidateCodingBrief_eq, candidateCodingBrief_eq, same.limits isCode, same.samples isCode,
    same.hidden isCode]
  simp only [CandidateCodingBrief.mk.injEq, true_and, and_true]

private theorem candidateOptions_eq {v w : QuestionVersionRecord}
    (same : v.options.map (fun o => (o.id, o.ordinal, o.bodyMd)) =
      w.options.map (fun o => (o.id, o.ordinal, o.bodyMd))) :
    v.options.map candidateOption = w.options.map candidateOption := by
  have served := congrArg (List.map fun part => CandidateOption.mk part.1 part.2.1 part.2.2) same
  rw [List.map_map, List.map_map] at served
  exact served

/-- What reaches a candidate beyond the public part is the fixture of a `coding` question, and
nothing else of the record. -/
theorem toCandidateView_eq_iff (kind : QuestionKind) (v w : QuestionVersionRecord)
    (same : SamePublicPart kind v w) :
    toCandidateView kind v = toCandidateView kind w ↔
      (kind = .coding → v.fixtureSql = w.fixtureSql) := by
  unfold toCandidateView
  simp only [same.id, same.promptMd, same.estSeconds, same.maxScore, same.negativeScore]
  by_cases choice : isChoiceKind kind
  · have inKinds : kind ∈ CHOICE_KINDS := by simpa [isChoiceKind] using choice
    have notCoding : kind ≠ .coding := by
      intro coding
      rw [coding] at choice
      exact absurd choice (by decide)
    rw [if_pos choice, if_pos choice, candidateOptions_eq (same.options inKinds)]
    exact ⟨fun _ coding => absurd coding notCoding, fun _ => rfl⟩
  · by_cases isCode : isCodeKind kind
    · have inKinds : kind ∈ CODE_KINDS := by simpa [isCodeKind] using isCode
      rw [if_neg choice, if_neg choice, if_pos isCode, if_pos isCode, CandidateQuestionView.code.injEq]
      simp only [true_and, candidateCodingBrief_eq_iff same inKinds]
      -- The two kinds of code questions: only of `sql` is the fixture part of the public part.
      simp only [CODE_KINDS, List.mem_cons, List.not_mem_nil, or_false] at inKinds
      apply Or.elim inKinds
      · intro coding
        exact ⟨fun equal _ => equal, fun equal => equal coding⟩
      · intro sql
        exact ⟨fun equal _ => equal, fun _ => same.fixture sql⟩
    · have notCoding : kind ≠ .coding := by
        intro coding
        rw [coding] at isCode
        exact absurd (by decide) isCode
      rw [if_neg choice, if_neg choice, if_neg isCode, if_neg isCode]
      exact ⟨fun _ coding => absurd coding notCoding, fun _ => by simp⟩

/-- A version of nothing but a spec with this fixture, for runs on fixed inputs. -/
def fixtureVersion (fixture : Option JsString) : QuestionVersionRecord where
  id := js "v"
  questionId := js "q"
  versionNo := 1
  locale := js "en"
  promptMd := js "Reverse a list."
  explanationMd := none
  difficulty := 2
  estSeconds := 900
  maxScore := .ofInt 10
  negativeScore := .ofInt 0
  publishedAt := none
  createdBy := none
  createdAt := 0
  options := []
  codingSpec := some
    { allowedLanguages := [js "python"]
      starterCode := []
      solutionCode := []
      timeLimitMs := 3000
      memoryLimitKb := 65536
      gradingMode := js "test_cases"
      checkerCode := none
      fixtureSql := fixture }
  testCases := []
  answerKeys := []

/-- Two `coding` versions alike but for the fixture. -/
private theorem fixtureVersion_same (fixture other : Option JsString) :
    SamePublicPart .coding (fixtureVersion fixture) (fixtureVersion other) where
  id := rfl
  promptMd := rfl
  estSeconds := rfl
  maxScore := rfl
  negativeScore := rfl
  options _ := rfl
  limits _ := rfl
  samples _ := rfl
  hidden _ := rfl
  fixture sql := absurd sql (by decide)

/-- A `coding` version whose solution, checker, case, explanation and stray option and answer key all
hold one text. -/
def secretVersion (secret : JsString) : QuestionVersionRecord :=
  { fixtureVersion (some (js "CREATE TABLE t (id int);")) with
    explanationMd := some secret
    options := [⟨js "o", 1, secret, true, none, some secret⟩]
    codingSpec := some
      { allowedLanguages := [js "python"]
        starterCode := []
        solutionCode := [(js "python", secret)]
        timeLimitMs := 3000
        memoryLimitKb := 65536
        gradingMode := js "custom_checker"
        checkerCode := some secret
        fixtureSql := some (js "CREATE TABLE t (id int);") }
    testCases := [⟨js "c", 1, some secret, secret, some secret, some [secret], some secret, false, 1⟩]
    answerKeys := [⟨js "k", js "exact", secret, none, 1⟩] }

/-- Two versions with nothing private in common have one view. -/
theorem toCandidateView_eq_iff_example :
    toCandidateView .coding (secretVersion (js "one")) =
        toCandidateView .coding (secretVersion (js "another")) ↔
      (QuestionKind.coding = .coding →
        (secretVersion (js "one")).fixtureSql = (secretVersion (js "another")).fixtureSql) :=
  toCandidateView_eq_iff .coding _ _
    { id := rfl
      promptMd := rfl
      estSeconds := rfl
      maxScore := rfl
      negativeScore := rfl
      options := fun choice => absurd choice (by decide)
      limits := fun _ => rfl
      samples := fun _ => rfl
      hidden := fun _ => rfl
      fixture := fun sql => absurd sql (by decide) }

/-- A candidate of a `coding` question tells one fixture from another. -/
theorem toCandidateView_serves_fixture :
    SamePublicPart .coding (fixtureVersion none)
        (fixtureVersion (some (js "CREATE TABLE t (id int);"))) ∧
      toCandidateView .coding (fixtureVersion none) ≠
        toCandidateView .coding (fixtureVersion (some (js "CREATE TABLE t (id int);"))) := by
  refine ⟨fixtureVersion_same _ _, ?_⟩
  decide +kernel

end Assaybank.Contracts
