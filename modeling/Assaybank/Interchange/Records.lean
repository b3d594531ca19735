import Assaybank.Db.Questions
import Assaybank.Interchange.BankItem

/-!
Owns the two directions between the interchange type and stored content
(`apps/worker/src/interchange/records.ts`), and what the kind rule sees on either side.

The importer judges a file by `shapeOfBankVersion`, the API judges what is stored by
`shapeOfContent`. They read the fixture of an execution spec differently: one asks whether
it is empty, the other whether it is blank.
-/

namespace Assaybank.Interchange

open Assaybank.Runtime Assaybank.Contracts Assaybank.Domain Assaybank.Db

def toOptionContent (option : BankOption) : McqOptionContent :=
  ⟨option.bodyMd, option.isCorrect, option.scoreDelta, option.rationaleMd⟩

def toSpecContent (spec : BankCodingSpec) : CodingSpecContent where
  allowedLanguages := spec.allowedLanguages
  starterCode := spec.starterCode
  solutionCode := spec.solutionCode
  timeLimitMs := spec.timeLimitMs
  memoryLimitKb := spec.memoryLimitKb
  gradingMode := spec.gradingMode
  checkerCode := spec.checkerCode
  fixtureSql := spec.fixtureSql

def toCaseContent (testCase : BankTestCase) : TestCaseContent where
  label := testCase.label
  stdin := testCase.stdin
  expectedStdout := testCase.expectedStdout
  args := testCase.args
  assertionCode := testCase.assertionCode
  isSample := testCase.isSample
  weight := testCase.weight

def toKeyContent (key : BankAnswerKey) : AnswerKeyContent :=
  ⟨key.matchType, key.pattern, key.tolerance, key.score⟩

/-- One interchange version as the repository writes it. -/
def toVersionContent (version : BankVersion) : VersionContent where
  locale := version.locale
  promptMd := version.promptMd
  explanationMd := version.explanationMd
  difficulty := version.difficulty
  estSeconds := version.estSeconds
  maxScore := version.maxScore
  negativeScore := version.negativeScore
  options := version.options.map toOptionContent
  codingSpec := version.codingSpec.map toSpecContent
  testCases := version.testCases.map toCaseContent
  answerKeys := version.answerKeys.map toKeyContent

def toBankOption (option : McqOptionContent) : BankOption :=
  ⟨option.bodyMd, option.isCorrect, option.scoreDelta, option.rationaleMd⟩

def toBankSpec (spec : CodingSpecContent) : BankCodingSpec where
  allowedLanguages := spec.allowedLanguages
  starterCode := spec.starterCode
  solutionCode := spec.solutionCode
  timeLimitMs := spec.timeLimitMs
  memoryLimitKb := spec.memoryLimitKb
  gradingMode := spec.gradingMode
  checkerCode := spec.checkerCode
  fixtureSql := spec.fixtureSql

def toBankCase (testCase : TestCaseContent) : BankTestCase where
  label := testCase.label
  stdin := testCase.stdin
  expectedStdout := testCase.expectedStdout
  args := testCase.args
  assertionCode := testCase.assertionCode
  isSample := testCase.isSample
  weight := testCase.weight

def toBankKey (key : AnswerKeyContent) : BankAnswerKey :=
  ⟨key.matchType, key.pattern, key.tolerance, key.score⟩

/-- One stored version as it leaves the organisation. -/
def toBankVersion (record : VersionRow) : BankVersion where
  versionNo := record.versionNo
  published := record.isPublished
  locale := record.content.locale
  promptMd := record.content.promptMd
  explanationMd := record.content.explanationMd
  difficulty := record.content.difficulty
  estSeconds := record.content.estSeconds
  maxScore := record.content.maxScore
  negativeScore := record.content.negativeScore
  options := record.content.options.map toBankOption
  codingSpec := record.content.codingSpec.map toBankSpec
  testCases := record.content.testCases.map toBankCase
  answerKeys := record.content.answerKeys.map toBankKey

/-- Writing what was read gives the content back. -/
theorem toVersionContent_toBankVersion (record : VersionRow) :
    toVersionContent (toBankVersion record) = record.content := by
  have options : toOptionContent ∘ toBankOption = id := rfl
  have specs : toSpecContent ∘ toBankSpec = id := rfl
  have cases : toCaseContent ∘ toBankCase = id := rfl
  have keys : toKeyContent ∘ toBankKey = id := rfl
  simp only [toVersionContent, toBankVersion, List.map_map, Option.map_map, options, specs, cases,
    keys, List.map_id, Option.map_id, id]

/-! ### The two readings of one version -/

/-- The fixture an execution spec carries, empty when it has none. -/
def fixtureOf (version : BankVersion) : JsString :=
  (version.codingSpec.bind BankCodingSpec.fixtureSql).getD []

/-- A fixture of white space alone. -/
def BlankFixture (version : BankVersion) : Prop :=
  fixtureOf version ≠ [] ∧ trim (fixtureOf version) = []

instance (version : BankVersion) : Decidable (BlankFixture version) :=
  inferInstanceAs (Decidable (_ ∧ _))

theorem trim_nil : trim [] = [] := rfl

private theorem fixtureSql_toSpecContent (spec : Option BankCodingSpec) :
    (spec.map toSpecContent).bind CodingSpecContent.fixtureSql =
      spec.bind BankCodingSpec.fixtureSql := by
  cases spec <;> rfl

private theorem hasFixtureSql_eq_iff (version : BankVersion) :
    (shapeOfBankVersion version).hasFixtureSql =
        (shapeOfContent (toVersionContent version)).hasFixtureSql ↔ ¬ BlankFixture version := by
  have stored : (shapeOfContent (toVersionContent version)).hasFixtureSql =
      !(trim (fixtureOf version) == []) := by
    simp only [shapeOfContent, toVersionContent, isBlankText, fixtureSql_toSpecContent]
    rfl
  have read : (shapeOfBankVersion version).hasFixtureSql = !(fixtureOf version == []) := rfl
  rw [stored, read]
  unfold BlankFixture
  generalize fixtureOf version = fixture
  by_cases empty : fixture = []
  · simp [empty, trim_nil]
  · by_cases blank : trim fixture = []
    · simp [empty, blank]
    · rw [beq_eq_false_iff_ne.mpr empty, beq_eq_false_iff_ne.mpr blank]
      simp [blank]

private theorem length_filter_map {α β : Type} (keep : β → Bool) (f : α → β) (items : List α) :
    ((items.map f).filter keep).length = (items.filter fun a => keep (f a)).length := by
  rw [List.filter_map, List.length_map]
  rfl

/-- Everything but the fixture is read alike. -/
theorem shape_eq_but_fixture (version : BankVersion) :
    shapeOfBankVersion version =
      { shapeOfContent (toVersionContent version) with
        hasFixtureSql := (shapeOfBankVersion version).hasFixtureSql } := by
  rw [KindContentShape.mk.injEq]
  refine ⟨?_, ?_, ?_, rfl, ?_, ?_, ?_, ?_, ?_⟩
  all_goals simp only [shapeOfBankVersion, shapeOfContent, toVersionContent, length_filter_map,
    List.length_map, Option.isSome_map, Option.map_map]
  all_goals rfl

theorem shape_eq_iff (version : BankVersion) :
    shapeOfBankVersion version = shapeOfContent (toVersionContent version) ↔
      ¬ BlankFixture version := by
  rw [← hasFixtureSql_eq_iff]
  constructor
  · intro same
    rw [same]
  · intro same
    rw [shape_eq_but_fixture, same]

/-- Whether the importer's kind rule admits a version for publication. -/
def importAdmits (kind : QuestionKind) (version : BankVersion) : Prop :=
  validateKindContent kind (shapeOfBankVersion version) .publish = []

/-- Whether the API's kind rule lets stored content be published. -/
def apiAdmits (kind : QuestionKind) (content : VersionContent) : Prop :=
  validateKindContent kind (shapeOfContent content) .publish = []

instance (kind : QuestionKind) (version : BankVersion) : Decidable (importAdmits kind version) :=
  inferInstanceAs (Decidable (_ = _))

instance (kind : QuestionKind) (content : VersionContent) : Decidable (apiAdmits kind content) :=
  inferInstanceAs (Decidable (_ = _))

private theorem checkBankItem_published {item : BankItem} {version : BankVersion} {index : Nat}
    (shaped : BankItemSchema.Accepts item) (only : item.versions = [version])
    (published : version.published = true) :
    checkBankItem (BankItemSchema.encode item) index = .ok item ↔
      importAdmits item.kind version := by
  have stage : stageOf version = .publish := by simp [stageOf, published]
  rw [checkBankItem_eq_ok, kindProblems_eq_nil, only]
  simp only [List.mem_singleton, forall_eq, stage]
  exact and_iff_right shaped

/-- The two paths judge a version alike exactly when its fixture is not of white space alone:
the counts agree, so the rule does, and so does the check of an item that publishes the version. -/
theorem importPath_agrees_iff (version : BankVersion) :
    (shapeOfBankVersion version = shapeOfContent (toVersionContent version) ∧
        (∀ kind, importAdmits kind version ↔ apiAdmits kind (toVersionContent version)) ∧
        ∀ item index, BankItemSchema.Accepts item → item.versions = [version] →
          version.published = true →
          (checkBankItem (BankItemSchema.encode item) index = .ok item ↔
            apiAdmits item.kind (toVersionContent version))) ↔
      ¬ BlankFixture version := by
  constructor
  · intro agrees
    exact (shape_eq_iff version).mp agrees.1
  · intro notBlank
    have same := (shape_eq_iff version).mpr notBlank
    have rules (kind : QuestionKind) :
        importAdmits kind version ↔ apiAdmits kind (toVersionContent version) := by
      unfold importAdmits apiAdmits
      rw [same]
    refine ⟨same, rules, fun item index shaped only published => ?_⟩
    rw [checkBankItem_published shaped only published]
    exact rules item.kind

/-- An sql question with one hidden case, and a fixture of one space. -/
def blankFixtureVersion : BankVersion where
  versionNo := 1
  published := true
  locale := js "en"
  promptMd := js "q"
  explanationMd := none
  difficulty := 1
  estSeconds := 1
  maxScore := 1
  negativeScore := 0
  options := []
  codingSpec := some
    { allowedLanguages := [js "sql"]
      starterCode := []
      solutionCode := []
      timeLimitMs := 1000
      memoryLimitKb := 1024
      gradingMode := .testCases
      checkerCode := none
      fixtureSql := some (js " ") }
  testCases := [⟨none, [], none, none, none, false, 1⟩]
  answerKeys := []

/-- The importer publishes it as sql and refuses it as coding; the API does the opposite. -/
theorem importPath_disagrees :
    shapeOfBankVersion blankFixtureVersion ≠ shapeOfContent (toVersionContent blankFixtureVersion) ∧
      importAdmits .sql blankFixtureVersion ∧
      ¬ apiAdmits .sql (toVersionContent blankFixtureVersion) ∧
      ¬ importAdmits .coding blankFixtureVersion ∧
      apiAdmits .coding (toVersionContent blankFixtureVersion) := by
  decide +kernel

end Assaybank.Interchange
