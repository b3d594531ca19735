import Assaybank.Domain.KindContent
import Assaybank.Library.JsonReading

/-!
Owns the interchange model (`apps/worker/src/interchange/bank-item.ts`): one question as it
crosses an organisation boundary, the schema of every part of it, and `checkBankItem`, which an
importer runs on a raw row.

Contract: `Accepted` is acceptance of the item an importer is given, and a checked row
yields only such items (`checkBankItem_accepted`).
-/

namespace Assaybank.Interchange

open Assaybank.Runtime Assaybank.Library Assaybank.Contracts Assaybank.Domain

structure BankOption where
  bodyMd : JsString
  isCorrect : Bool
  scoreDelta : Option Decimal
  rationaleMd : Option JsString
deriving DecidableEq

structure BankCodingSpec where
  allowedLanguages : List JsString
  starterCode : List (JsString × JsString)
  solutionCode : List (JsString × JsString)
  timeLimitMs : Int
  memoryLimitKb : Int
  gradingMode : GradingMode
  checkerCode : Option JsString
  fixtureSql : Option JsString
deriving DecidableEq

structure BankTestCase where
  label : Option JsString
  stdin : JsString
  expectedStdout : Option JsString
  args : Option (List JsString)
  /-- The unit test this case runs, in `unit_tests` mode. -/
  assertionCode : Option JsString
  isSample : Bool
  weight : Decimal
deriving DecidableEq

structure BankAnswerKey where
  matchType : MatchType
  pattern : JsString
  tolerance : Option Decimal
  score : Decimal
deriving DecidableEq

structure BankVersion where
  versionNo : Int
  /-- Whether this version was published. Not when. -/
  published : Bool
  locale : JsString
  promptMd : JsString
  explanationMd : Option JsString
  difficulty : Int
  estSeconds : Int
  maxScore : Decimal
  negativeScore : Decimal
  options : List BankOption
  codingSpec : Option BankCodingSpec
  testCases : List BankTestCase
  answerKeys : List BankAnswerKey
deriving DecidableEq

structure BankSkill where
  key : JsString
  weight : Decimal
deriving DecidableEq

structure BankItem where
  ref : JsString
  kind : QuestionKind
  status : QuestionStatus
  sourceLicense : Option JsString
  externalRef : Option JsString
  skills : List BankSkill
  versions : List BankVersion
deriving DecidableEq

/-! ### Schemas -/

/-! What may be null is of a form that is not. -/

private theorem delta_notNull : ∀ a, (scoreValue MIN_SCORE_VALUE).encode a ≠ .null := by
  intro _ isNull
  cases isNull

private theorem explanation_notNull :
    ∀ a, (Schema.string [maxLength MAX_EXPLANATION_LENGTH]).encode a ≠ .null := by
  intro _ isNull
  cases isNull

private theorem text_notNull : ∀ a, (Schema.string []).encode a ≠ .null := by
  intro _ isNull
  cases isNull

private theorem label_notNull : ∀ a, (Schema.string [maxLength 200]).encode a ≠ .null := by
  intro _ isNull
  cases isNull

private theorem args_notNull : ∀ a, (Schema.array (Schema.string []) []).encode a ≠ .null := by
  intro _ isNull
  cases isNull

private theorem assertion_notNull :
    ∀ a, (Schema.string [maxLength MAX_ASSERTION_LENGTH]).encode a ≠ .null := by
  intro _ isNull
  cases isNull

private theorem tolerance_notNull : ∀ a, (Schema.number [minValue 0]).encode a ≠ .null := by
  intro _ isNull
  cases isNull

def BankOptionSchema : Schema BankOption :=
  .strictObject
    (.both (.field (js "body_md") (.string [minLength 1, maxLength MAX_PROMPT_LENGTH]))
      (.both (.field (js "is_correct") .bool)
        (.both (.field (js "score_delta") (.nullable (scoreValue MIN_SCORE_VALUE) delta_notNull))
          (.field (js "rationale_md")
            (.nullable (.string [maxLength MAX_EXPLANATION_LENGTH]) explanation_notNull)))))
    { toFun := fun (body, correct, delta, rationale) => ⟨body, correct, delta, rationale⟩
      invFun := fun o => (o.bodyMd, o.isCorrect, o.scoreDelta, o.rationaleMd)
      left_inv := fun _ => rfl
      right_inv := fun _ => rfl }

def BankCodingSpecSchema : Schema BankCodingSpec :=
  .strictObject
    (.both (.field (js "allowed_languages")
        (.array (.string [minLength 1, maxLength 50]) [minItems 1, maxItems 20]))
      (.both (.field (js "starter_code") .record)
        (.both (.field (js "solution_code") .record)
          (.both (.field (js "time_limit_ms") (safeInteger [minInt 100, maxInt 60000]))
            (.both (.field (js "memory_limit_kb") (safeInteger [minInt 1024, maxInt 2097152]))
              (.both (.field (js "grading_mode") GradingModeSchema)
                (.both (.field (js "checker_code") (.nullable (.string []) text_notNull))
                  (.field (js "fixture_sql") (.nullable (.string []) text_notNull)))))))))
    { toFun := fun (languages, starter, solution, time, memory, mode, checker, fixture) =>
        ⟨languages, starter, solution, time, memory, mode, checker, fixture⟩
      invFun := fun s => (s.allowedLanguages, s.starterCode, s.solutionCode, s.timeLimitMs,
        s.memoryLimitKb, s.gradingMode, s.checkerCode, s.fixtureSql)
      left_inv := fun _ => rfl
      right_inv := fun _ => rfl }

def BankTestCaseSchema : Schema BankTestCase :=
  .strictObject
    (.both (.field (js "label") (.nullable (.string [maxLength 200]) label_notNull))
      (.both (.field (js "stdin") (.string []))
        (.both (.field (js "expected_stdout") (.nullable (.string []) text_notNull))
          (.both (.field (js "args") (.nullable (.array (.string []) []) args_notNull))
            (.both (.field (js "assertion_code")
                (.nullable (.string [maxLength MAX_ASSERTION_LENGTH]) assertion_notNull))
              (.both (.field (js "is_sample") .bool)
                (.field (js "weight") (scoreValue MIN_CASE_WEIGHT))))))))
    { toFun := fun (label, stdin, expected, args, assertion, sample, weight) =>
        ⟨label, stdin, expected, args, assertion, sample, weight⟩
      invFun := fun c =>
        (c.label, c.stdin, c.expectedStdout, c.args, c.assertionCode, c.isSample, c.weight)
      left_inv := fun _ => rfl
      right_inv := fun _ => rfl }

def BankAnswerKeySchema : Schema BankAnswerKey :=
  .strictObject
    (.both (.field (js "match_type") MatchTypeSchema)
      (.both (.field (js "pattern") (.string [minLength 1, maxLength 2000]))
        (.both (.field (js "tolerance") (.nullable (.number [minValue 0]) tolerance_notNull))
          (.field (js "score") (scoreValue MIN_SCORE_VALUE)))))
    { toFun := fun (type, pattern, tolerance, score) => ⟨type, pattern, tolerance, score⟩
      invFun := fun k => (k.matchType, k.pattern, k.tolerance, k.score)
      left_inv := fun _ => rfl
      right_inv := fun _ => rfl }

def BankVersionSchema : Schema BankVersion :=
  .strictObject
    (.both (.field (js "version_no") (safeInteger [minInt 1]))
      (.both (.field (js "published") .bool)
        (.both (.field (js "locale") (.string [minLength 2, maxLength 35]))
          (.both (.field (js "prompt_md") (.string [minLength 1, maxLength MAX_PROMPT_LENGTH]))
            (.both (.field (js "explanation_md")
                (.nullable (.string [maxLength MAX_EXPLANATION_LENGTH]) explanation_notNull))
              (.both (.field (js "difficulty") DifficultySchema)
                (.both (.field (js "est_seconds") (safeInteger [minInt 1, maxInt 86400]))
                  (.both (.field (js "max_score") (scoreValue 0))
                    (.both (.field (js "negative_score") (scoreValue 0))
                      (.both (.field (js "options")
                          (.array BankOptionSchema [maxItems MAX_OPTIONS]))
                        (.both (.field (js "coding_spec") (.nullable BankCodingSpecSchema))
                          (.both (.field (js "test_cases")
                              (.array BankTestCaseSchema [maxItems MAX_TEST_CASES]))
                            (.field (js "answer_keys")
                              (.array BankAnswerKeySchema [maxItems MAX_ANSWER_KEYS]))))))))))))))
    { toFun := fun (number, published, locale, prompt, explanation, difficulty, seconds, score,
          negative, options, spec, cases, keys) =>
        ⟨number, published, locale, prompt, explanation, difficulty, seconds, score, negative,
          options, spec, cases, keys⟩
      invFun := fun v => (v.versionNo, v.published, v.locale, v.promptMd, v.explanationMd,
        v.difficulty, v.estSeconds, v.maxScore, v.negativeScore, v.options, v.codingSpec,
        v.testCases, v.answerKeys)
      left_inv := fun _ => rfl
      right_inv := fun _ => rfl }

def BankSkillSchema : Schema BankSkill :=
  .strictObject
    (.both (.field (js "key") SkillKeySchema)
      (.field (js "weight") (.number [minValue 0, maxValue MAX_WEIGHT_VALUE, twoDecimals])))
    { toFun := fun (key, weight) => ⟨key, weight⟩
      invFun := fun s => (s.key, s.weight)
      left_inv := fun _ => rfl
      right_inv := fun _ => rfl }

/-- The most versions one exported question may carry. -/
def MAX_BANK_VERSIONS : Nat := 500

/-- `[A-Za-z0-9._-]`. -/
def isRefUnit (c : CodeUnit) : Bool :=
  isAlpha c || isDigit c || c == unit '.' || c == unit '_' || c == unit '-'

/-- `^[A-Za-z0-9][A-Za-z0-9._-]*$`. -/
def isRef (ref : JsString) : Bool :=
  (ref.head?.any fun c => isAlpha c || isDigit c) && ref.all isRefUnit

def RefSchema : Schema JsString :=
  .string [minLength 1, maxLength 200,
    ⟨isRef, .invalidFormat (js
      "a ref starts with a letter or digit, then letters, digits, dot, underscore or hyphen")⟩]

def BankItemShape : Schema BankItem :=
  .strictObject
    (.both (.field (js "ref") RefSchema)
      (.both (.field (js "kind") QuestionKindSchema)
        (.both (.field (js "status") QuestionStatusSchema)
          (.both (.field (js "source_license") (.nullable SourceLicenseSchema))
            (.both (.field (js "external_ref") (.nullable ExternalRefSchema))
              (.both (.field (js "skills") (.array BankSkillSchema [maxItems 50]))
                (.field (js "versions")
                  (.array BankVersionSchema [minItems 1, maxItems MAX_BANK_VERSIONS]))))))))
    { toFun := fun (ref, kind, status, licence, external, skills, versions) =>
        ⟨ref, kind, status, licence, external, skills, versions⟩
      invFun := fun i =>
        (i.ref, i.kind, i.status, i.sourceLicense, i.externalRef, i.skills, i.versions)
      left_inv := fun _ => rfl
      right_inv := fun _ => rfl }

/-! ### Rules on the whole item -/

/-- Whether PostgreSQL `text` can store a string: no U+0000 and no unpaired surrogate. -/
def isStorable (value : JsString) : Bool := isCharacterText value

mutual

/-- Every string in a value that PostgreSQL `text` cannot store, by path. -/
def unstorableStrings : Value → List Segment → List (List Segment)
  | .string s, path => if isStorable s then [] else [path]
  | .array items, path => unstorableItems items 0 path
  | .object members, path => unstorableMembers members path
  | .null, _ => []
  | .bool _, _ => []
  | .number _, _ => []
  | .nonFinite, _ => []

def unstorableItems : List Value → Nat → List Segment → List (List Segment)
  | [], _, _ => []
  | item :: rest, index, path =>
      unstorableStrings item (path ++ [.index index]) ++ unstorableItems rest (index + 1) path

def unstorableMembers : List (JsString × Value) → List Segment → List (List Segment)
  | [], _ => []
  | (name, value) :: rest, path =>
      (if isStorable name then [] else [path ++ [.key name]]) ++
        unstorableStrings value (path ++ [.key name]) ++ unstorableMembers rest path

end

/-- The positions whose number does not exceed the one before it. -/
def nonAscending : Nat → List Int → List Nat
  | position, previous :: number :: rest =>
      (if number ≤ previous then [position + 1] else []) ++
        nonAscending (position + 1) (number :: rest)
  | _, _ => []

def storableIssues (item : BankItem) : List Issue :=
  (unstorableStrings (BankItemShape.encode item) []).map fun path =>
    ⟨path, .custom (js
      "contains U+0000 or an unpaired surrogate, which a question bank cannot store")⟩

def versionNumberIssues (item : BankItem) : List Issue :=
  (nonAscending 0 (item.versions.map BankVersion.versionNo)).map fun position =>
    ⟨[.key (js "versions"), .index position, .key (js "version_no")],
      .custom (js "version numbers must ascend strictly")⟩

def skillIssues (item : BankItem) : List Issue :=
  if (item.skills.map BankSkill.key).Nodup then []
  else [⟨[.key (js "skills")], .custom (js "each skill may appear once")⟩]

/-- Whether a question of this status has been served. -/
def isServed (status : QuestionStatus) : Bool := status == .published || status == .retired

def statusIssues (item : BankItem) : List Issue :=
  let anyPublished := item.versions.any BankVersion.published
  if isServed item.status == anyPublished then []
  else
    [⟨[.key (js "status")], .custom (js (
      if anyPublished then s!"a {item.status.name} question cannot carry a published version"
      else s!"a {item.status.name} question needs at least one published version"))⟩]

def BankItemSchema : Schema BankItem :=
  BankItemShape.refine fun item =>
    storableIssues item ++ versionNumberIssues item ++ skillIssues item ++ statusIssues item

/-! ### The check -/

/-- The counts the kind rule needs, from one version. -/
def shapeOfBankVersion (version : BankVersion) : KindContentShape where
  optionCount := version.options.length
  correctOptionCount := (version.options.filter BankOption.isCorrect).length
  hasCodingSpec := version.codingSpec.isSome
  hasFixtureSql := (version.codingSpec.bind BankCodingSpec.fixtureSql).getD [] != []
  testCaseCount := version.testCases.length
  hiddenTestCaseCount := (version.testCases.filter fun t => !t.isSample).length
  answerKeyCount := version.answerKeys.length
  gradingMode := version.codingSpec.map fun spec => js spec.gradingMode.name
  casesWithoutAssertion :=
    (version.testCases.filter fun t => trim (t.assertionCode.getD []) == []).length

/-- One problem with one item. The path is that of the issue inside the item. -/
structure ItemProblem where
  index : Nat
  ref : Option JsString
  path : List Segment
  rule : Rule
deriving DecidableEq

/-- A published version is held to the publish bar and a draft to the draft bar. -/
def stageOf (version : BankVersion) : KindContentStage :=
  if version.published then .publish else .draft

/-- The kind rule on every version of an item. -/
def kindProblems (item : BankItem) (index : Nat) : List ItemProblem :=
  item.versions.zipIdx.flatMap fun (version, v) =>
    (validateKindContent item.kind (shapeOfBankVersion version) (stageOf version)).map fun issue =>
      ⟨index, some item.ref, [.key (js "versions"), .index v, .key (js issue.field.name)],
        .custom issue.message⟩

/-- The `ref` of a raw row, when it could be read. -/
def refOf : Value → Option JsString
  | .object members =>
      match member? members (js "ref") with
      | some (.string ref) => some ref
      | _ => none
  | _ => none

/-- Validates one item as an importer must: the schema, then the kind rule per version. -/
def checkBankItem (value : Value) (index : Nat) : Except (List ItemProblem) BankItem :=
  let parsed := BankItemSchema.parse value
  match parsed.value, parsed.issues with
  | some item, [] =>
      if kindProblems item index = [] then .ok item else .error (kindProblems item index)
  | _, issues =>
      .error (issues.map fun issue => ⟨index, refOf value, issue.path, issue.rule⟩)

/-- The version a QTI export carries: the last published, or the last of all when none is. -/
def servedOrLatest (item : BankItem) : Option BankVersion :=
  (item.versions.filter BankVersion.published).getLast?.or item.versions.getLast?

/-! ### Acceptance -/

/-- An item the check accepts, as it stands. -/
def Accepted (item : BankItem) : Prop :=
  ∀ index, checkBankItem (BankItemSchema.encode item) index = .ok item

theorem kindProblems_eq_nil {item : BankItem} {index : Nat} :
    kindProblems item index = [] ↔ ∀ version ∈ item.versions,
      validateKindContent item.kind (shapeOfBankVersion version) (stageOf version) = [] := by
  unfold kindProblems
  rw [List.flatMap_eq_nil_iff]
  constructor
  · intro none version inside
    obtain ⟨position, bound, rfl⟩ := List.getElem_of_mem inside
    have := none (item.versions[position], position)
      (List.mem_zipIdx_iff_getElem?.mpr (by simp [bound]))
    simpa using this
  · rintro valid ⟨version, v⟩ inside
    simp only [valid version (List.fst_mem_of_mem_zipIdx inside), List.map_nil]

theorem checkBankItem_eq_ok {value : Value} {index : Nat} {item : BankItem} :
    checkBankItem value index = .ok item ↔
      BankItemSchema.parse value = .accepted item ∧ kindProblems item index = [] := by
  unfold checkBankItem
  generalize BankItemSchema.parse value = parsed
  rcases parsed with ⟨read, issues⟩
  cases read with
  | none => simp [Parsed.accepted]
  | some other =>
      cases issues with
      | cons issue rest => simp [Parsed.accepted]
      | nil =>
          simp only [Parsed.accepted, Parsed.mk.injEq, Option.some.injEq, and_true]
          split
          · rename_i valid
            constructor
            · intro same
              cases same
              exact ⟨rfl, valid⟩
            · rintro ⟨rfl, _⟩
              rfl
          · rename_i invalid
            simp only [reduceCtorEq, false_iff, not_and]
            rintro rfl
            exact invalid

theorem accepted_iff {item : BankItem} :
    Accepted item ↔ BankItemSchema.Accepts item ∧ ∀ version ∈ item.versions,
      validateKindContent item.kind (shapeOfBankVersion version) (stageOf version) = [] := by
  simp only [Accepted, checkBankItem_eq_ok, kindProblems_eq_nil, forall_const]
  rfl

/-- What a checked row yields is accepted. -/
theorem checkBankItem_accepted {value : Value} {index : Nat} {item : BankItem}
    (checked : checkBankItem value index = .ok item) : Accepted item := by
  obtain ⟨parsed, valid⟩ := checkBankItem_eq_ok.mp checked
  rw [accepted_iff]
  exact ⟨Schema.accepts_of_parse parsed, kindProblems_eq_nil.mp valid⟩

end Assaybank.Interchange
