import Assaybank.Interchange.BankItem
import Assaybank.Library.TextRules

/-!
Owns what an accepted item is, field by field: the bounds of the schemas and the rule on stored
text, each part under its own name, and the whole of it as `accepted_iff_parts`.
-/

namespace Assaybank.Interchange

open Assaybank.Runtime Assaybank.Library Assaybank.Contracts Assaybank.Domain

/-! ### Stored text -/

/-- The rule on text a question bank stores. -/
def storableText : TextRule := ⟨isStorable, isCharacterText_of_ascii⟩

mutual

theorem unstorableStrings_eq_nil : ∀ (value : Value) (path : List Segment),
    unstorableStrings value path = [] ↔ everyString isStorable value = true
  | .string s, path => by simp [unstorableStrings, everyString]
  | .array items, path => by
      simpa [unstorableStrings, everyString] using unstorableItems_eq_nil items 0 path
  | .object members, path => by
      simpa [unstorableStrings, everyString] using unstorableMembers_eq_nil members path
  | .null, _ => by simp [unstorableStrings, everyString]
  | .bool _, _ => by simp [unstorableStrings, everyString]
  | .number _, _ => by simp [unstorableStrings, everyString]
  | .nonFinite, _ => by simp [unstorableStrings, everyString]

theorem unstorableItems_eq_nil : ∀ (items : List Value) (index : Nat) (path : List Segment),
    unstorableItems items index path = [] ↔ everyItem isStorable items = true
  | [], _, _ => by simp [unstorableItems, everyItem]
  | item :: rest, index, path => by
      simp [unstorableItems, everyItem, unstorableStrings_eq_nil item,
        unstorableItems_eq_nil rest]

theorem unstorableMembers_eq_nil : ∀ (members : List (JsString × Value)) (path : List Segment),
    unstorableMembers members path = [] ↔ everyMember isStorable members = true
  | [], _ => by simp [unstorableMembers, everyMember]
  | (name, value) :: rest, path => by
      simp [unstorableMembers, everyMember, unstorableStrings_eq_nil value,
        unstorableMembers_eq_nil rest, and_assoc]

end

/-! ### Scalars -/

/-- Text of a length between two bounds that keeps a rule. -/
def TextFits (text : TextRule) (least most : Nat) (s : JsString) : Prop :=
  least ≤ s.length ∧ s.length ≤ most ∧ text.holds s = true

/-- An entry a record schema reads back, in text that keeps a rule. -/
def EntryFits (text : TextRule) (entry : JsString × JsString) : Prop :=
  entry.1 ≠ js "__proto__" ∧ text.holds entry.1 = true ∧ text.holds entry.2 = true

/-- A score a schema admits from `min` on. -/
def ScoreFits (min score : Decimal) : Prop := (scoreValue min).Accepts score

/-- A weight of a tag. -/
def WeightFits (weight : Decimal) : Prop :=
  (Schema.number [minValue 0, maxValue MAX_WEIGHT_VALUE, twoDecimals]).Accepts weight

section Scalars

variable {text : TextRule}

theorem fits_between {least most : Nat} {s : JsString} :
    Fits text (.string [minLength least, maxLength most]) s ↔ TextFits text least most s := by
  rw [fits_string, TextFits]
  simp [minLength, maxLength, and_assoc]

theorem fits_most {most : Nat} {s : JsString} :
    Fits text (.string [maxLength most]) s ↔ TextFits text 0 most s := by
  rw [fits_string, TextFits]
  simp [maxLength]

theorem fits_free {s : JsString} : Fits text (.string []) s ↔ text.holds s = true := by
  rw [fits_string]
  simp

theorem fits_entries {entries : List (JsString × JsString)} :
    Fits text .record entries ↔ ∀ entry ∈ entries, EntryFits text entry := fits_record

theorem fits_safeInteger {least most n : Int} (above : -MAX_SAFE_INTEGER ≤ least)
    (below : most ≤ MAX_SAFE_INTEGER) :
    Fits text (safeInteger [minInt least, maxInt most]) n ↔ least ≤ n ∧ n ≤ most := by
  unfold safeInteger
  rw [fits_integer]
  simp only [minInt, maxInt, List.mem_cons, List.not_mem_nil, or_false, forall_eq_or_imp, forall_eq,
    decide_eq_true_eq]
  omega

theorem fits_positiveInteger {least n : Int} (above : -MAX_SAFE_INTEGER ≤ least) :
    Fits text (safeInteger [minInt least]) n ↔ least ≤ n ∧ n ≤ MAX_SAFE_INTEGER := by
  unfold safeInteger
  rw [fits_integer]
  simp only [minInt, maxInt, List.mem_cons, List.not_mem_nil, or_false, forall_eq_or_imp, forall_eq,
    decide_eq_true_eq]
  omega

theorem fits_score {min score : Decimal} :
    Fits text (scoreValue min) score ↔ ScoreFits min score :=
  and_iff_left rfl

theorem fits_weight {weight : Decimal} :
    Fits text (.number [minValue 0, maxValue MAX_WEIGHT_VALUE, twoDecimals]) weight ↔
      WeightFits weight :=
  and_iff_left rfl

theorem fits_tolerance {tolerance : Decimal} :
    Fits text (.number [minValue 0]) tolerance ↔ 0 ≤ tolerance := by
  rw [fits_number]
  simp [minValue]

theorem fits_gradingMode {mode : GradingMode} : Fits text GradingModeSchema mode ↔ True := by
  unfold GradingModeSchema
  rw [fits_enumeration, iff_true]
  apply text.ascii
  cases mode <;> decide

theorem fits_matchType {type : MatchType} : Fits text MatchTypeSchema type ↔ True := by
  unfold MatchTypeSchema
  rw [fits_enumeration, iff_true]
  apply text.ascii
  cases type <;> decide

theorem fits_kind {kind : QuestionKind} : Fits text QuestionKindSchema kind ↔ True := by
  unfold QuestionKindSchema
  rw [fits_enumeration, iff_true]
  apply text.ascii
  cases kind <;> decide

theorem fits_status {status : QuestionStatus} :
    Fits text QuestionStatusSchema status ↔ True := by
  unfold QuestionStatusSchema
  rw [fits_enumeration, iff_true]
  apply text.ascii
  cases status <;> decide

theorem fits_atMost {α : Type} {schema : Schema α} {most : Nat} {items : List α} :
    Fits text (.array schema [maxItems most]) items ↔
      (∀ a ∈ items, Fits text schema a) ∧ items.length ≤ most := by
  rw [fits_array]
  simp [maxItems]

theorem fits_within {α : Type} {schema : Schema α} {least most : Nat} {items : List α} :
    Fits text (.array schema [minItems least, maxItems most]) items ↔
      (∀ a ∈ items, Fits text schema a) ∧ least ≤ items.length ∧ items.length ≤ most := by
  rw [fits_array]
  simp [minItems, maxItems]

theorem fits_list {α : Type} {schema : Schema α} {items : List α} :
    Fits text (.array schema []) items ↔ ∀ a ∈ items, Fits text schema a := by
  rw [fits_array]
  simp

end Scalars

/-! ### Parts -/

@[mk_iff]
structure OptionFits (text : TextRule) (option : BankOption) : Prop where
  bodyMd : TextFits text 1 MAX_PROMPT_LENGTH option.bodyMd
  scoreDelta : ∀ delta, option.scoreDelta = some delta → ScoreFits MIN_SCORE_VALUE delta
  rationaleMd : ∀ rationale, option.rationaleMd = some rationale →
    TextFits text 0 MAX_EXPLANATION_LENGTH rationale

@[mk_iff]
structure SpecFits (text : TextRule) (spec : BankCodingSpec) : Prop where
  languages : ∀ language ∈ spec.allowedLanguages, TextFits text 1 50 language
  languageCount : 1 ≤ spec.allowedLanguages.length ∧ spec.allowedLanguages.length ≤ 20
  starterCode : ∀ entry ∈ spec.starterCode, EntryFits text entry
  solutionCode : ∀ entry ∈ spec.solutionCode, EntryFits text entry
  timeLimitMs : 100 ≤ spec.timeLimitMs ∧ spec.timeLimitMs ≤ 60000
  memoryLimitKb : 1024 ≤ spec.memoryLimitKb ∧ spec.memoryLimitKb ≤ 2097152
  checkerCode : ∀ checker, spec.checkerCode = some checker → text.holds checker = true
  fixtureSql : ∀ fixture, spec.fixtureSql = some fixture → text.holds fixture = true

@[mk_iff]
structure CaseFits (text : TextRule) (testCase : BankTestCase) : Prop where
  label : ∀ label, testCase.label = some label → TextFits text 0 200 label
  stdin : text.holds testCase.stdin = true
  expectedStdout : ∀ expected, testCase.expectedStdout = some expected → text.holds expected = true
  args : ∀ args, testCase.args = some args → ∀ arg ∈ args, text.holds arg = true
  assertionCode : ∀ assertion, testCase.assertionCode = some assertion →
    TextFits text 0 MAX_ASSERTION_LENGTH assertion
  weight : ScoreFits MIN_CASE_WEIGHT testCase.weight

@[mk_iff]
structure KeyFits (text : TextRule) (key : BankAnswerKey) : Prop where
  pattern : TextFits text 1 2000 key.pattern
  tolerance : ∀ tolerance, key.tolerance = some tolerance → 0 ≤ tolerance
  score : ScoreFits MIN_SCORE_VALUE key.score

/-- Everything of a version but its number and whether it is published. -/
@[mk_iff]
structure VersionFits (text : TextRule) (version : BankVersion) : Prop where
  locale : TextFits text 2 35 version.locale
  promptMd : TextFits text 1 MAX_PROMPT_LENGTH version.promptMd
  explanationMd : ∀ explanation, version.explanationMd = some explanation →
    TextFits text 0 MAX_EXPLANATION_LENGTH explanation
  difficulty : MIN_DIFFICULTY ≤ version.difficulty ∧ version.difficulty ≤ MAX_DIFFICULTY
  estSeconds : 1 ≤ version.estSeconds ∧ version.estSeconds ≤ 86400
  maxScore : ScoreFits 0 version.maxScore
  negativeScore : ScoreFits 0 version.negativeScore
  options : ∀ option ∈ version.options, OptionFits text option
  optionCount : version.options.length ≤ MAX_OPTIONS
  codingSpec : ∀ spec, version.codingSpec = some spec → SpecFits text spec
  testCases : ∀ testCase ∈ version.testCases, CaseFits text testCase
  testCaseCount : version.testCases.length ≤ MAX_TEST_CASES
  answerKeys : ∀ key ∈ version.answerKeys, KeyFits text key
  answerKeyCount : version.answerKeys.length ≤ MAX_ANSWER_KEYS

section Parts

variable {text : TextRule}

theorem fits_option {option : BankOption} :
    Fits text BankOptionSchema option ↔ OptionFits text option := by
  rw [optionFits_iff, BankOptionSchema]
  simp (disch := decide) only [fits_strictObject, fieldsFit_both, fieldsFit_field, fits_nullable,
    fits_between, fits_most, fits_bool, fits_score, true_and, Equiv.coe_fn_symm_mk]

theorem fits_spec {spec : BankCodingSpec} :
    Fits text BankCodingSpecSchema spec ↔ SpecFits text spec := by
  rw [specFits_iff, BankCodingSpecSchema]
  simp (disch := decide) only [fits_strictObject, fieldsFit_both, fieldsFit_field, fits_nullable,
    fits_between, fits_free, fits_within, fits_entries, fits_safeInteger, fits_gradingMode, true_and,
    Equiv.coe_fn_symm_mk, and_assoc]

theorem fits_case {testCase : BankTestCase} :
    Fits text BankTestCaseSchema testCase ↔ CaseFits text testCase := by
  rw [caseFits_iff, BankTestCaseSchema]
  simp (disch := decide) only [fits_strictObject, fieldsFit_both, fieldsFit_field, fits_nullable,
    fits_most, fits_free, fits_list, fits_bool, fits_score, true_and, Equiv.coe_fn_symm_mk]

theorem fits_key {key : BankAnswerKey} :
    Fits text BankAnswerKeySchema key ↔ KeyFits text key := by
  rw [keyFits_iff, BankAnswerKeySchema]
  simp (disch := decide) only [fits_strictObject, fieldsFit_both, fieldsFit_field, fits_nullable,
    fits_between, fits_tolerance, fits_matchType, fits_score, true_and, Equiv.coe_fn_symm_mk]

theorem fits_version {version : BankVersion} :
    Fits text BankVersionSchema version ↔
      (1 ≤ version.versionNo ∧ version.versionNo ≤ MAX_SAFE_INTEGER) ∧
        VersionFits text version := by
  rw [versionFits_iff, BankVersionSchema]
  simp (disch := decide) only [fits_strictObject, fieldsFit_both, fieldsFit_field, fits_nullable,
    fits_between, fits_most, fits_bool, fits_positiveInteger, DifficultySchema, fits_safeInteger,
    fits_score, fits_atMost, fits_option, fits_spec, fits_case, fits_key, true_and,
    Equiv.coe_fn_symm_mk, and_assoc]

end Parts

/-! ### The item -/

/-- A tag an item carries. -/
structure SkillFits (skill : BankSkill) : Prop where
  key : SkillKeySchema.Accepts skill.key
  weight : WeightFits skill.weight

/-- An accepted item, part by part. -/
structure ItemFits (item : BankItem) : Prop where
  ref : RefSchema.Accepts item.ref
  sourceLicense : ∀ licence, item.sourceLicense = some licence →
    TextFits storableText 1 100 licence
  externalRef : ∀ external, item.externalRef = some external →
    TextFits storableText 1 200 external
  skills : ∀ skill ∈ item.skills, SkillFits skill
  skillCount : item.skills.length ≤ 50
  distinct : (item.skills.map BankSkill.key).Nodup
  versions : ∀ version ∈ item.versions, VersionFits storableText version
  numbers : ∀ version ∈ item.versions,
    1 ≤ version.versionNo ∧ version.versionNo ≤ MAX_SAFE_INTEGER
  versionCount : 1 ≤ item.versions.length ∧ item.versions.length ≤ MAX_BANK_VERSIONS
  ascending : (item.versions.map BankVersion.versionNo).Pairwise (· < ·)
  status : isServed item.status = item.versions.any BankVersion.published
  kinds : ∀ version ∈ item.versions,
    validateKindContent item.kind (shapeOfBankVersion version) (stageOf version) = []

private theorem mem_segment {p : CodeUnit → Bool} {s : JsString} {c : CodeUnit} (inside : c ∈ s) :
    p c = true ∨ ∃ segment ∈ s.splitOnP p, c ∈ segment := by
  induction s with
  | nil => cases inside
  | cons head rest inductionHypothesis =>
      rw [List.splitOnP_cons_eq_if_modifyHead]
      by_cases separator : p head = true
      · rw [if_pos separator]
        rcases List.mem_cons.mp inside with rfl | later
        · exact .inl separator
        · rcases inductionHypothesis later with separates | ⟨segment, member, within⟩
          · exact .inl separates
          · exact .inr ⟨segment, List.mem_cons_of_mem _ member, within⟩
      · rw [if_neg separator]
        obtain ⟨first, others, split⟩ := List.exists_cons_of_ne_nil (List.splitOnP_ne_nil p rest)
        rw [split] at inductionHypothesis ⊢
        rw [List.modifyHead_cons]
        rcases List.mem_cons.mp inside with rfl | later
        · exact .inr ⟨_, List.mem_cons_self, List.mem_cons_self⟩
        · rcases inductionHypothesis later with separates | ⟨segment, member, within⟩
          · exact .inl separates
          · rcases List.mem_cons.mp member with rfl | further
            · exact .inr ⟨_, List.mem_cons_self, List.mem_cons_of_mem _ within⟩
            · exact .inr ⟨segment, List.mem_cons_of_mem _ further, within⟩

private theorem ascii_of_units {s : JsString} {allowed : CodeUnit → Bool}
    (ascii : ∀ c, allowed c = true → 0 < c ∧ c < 128)
    (units : ∀ c ∈ s, allowed c = true) : isAsciiText s = true := by
  rw [isAsciiText, List.all_eq_true]
  intro c inside
  simpa using ascii c (units c inside)

private theorem nonAscending_eq_nil (position : Nat) (numbers : List Int) :
    nonAscending position numbers = [] ↔ numbers.Pairwise (· < ·) := by
  rw [← List.isChain_iff_pairwise]
  fun_induction nonAscending position numbers with
  | case1 position previous number rest inductionHypothesis =>
      rw [List.append_eq_nil_iff, inductionHypothesis, List.isChain_cons_cons]
      simp
  | case2 numbers position short =>
      rcases numbers with _ | ⟨number, _ | ⟨next, rest⟩⟩
      · simp
      · simp
      · exact absurd rfl (short number next rest)

private theorem ascii_range {low high c : CodeUnit} (above : 0 < low) (below : high < 128)
    (range : (decide (low ≤ c) && decide (c ≤ high)) = true) : 0 < c ∧ c < 128 := by
  simp only [Bool.and_eq_true, decide_eq_true_eq] at range
  exact ⟨UInt16.lt_of_lt_of_le above range.1, UInt16.lt_of_le_of_lt range.2 below⟩

private theorem ascii_refUnit {c : CodeUnit} (allowed : isRefUnit c = true) : 0 < c ∧ c < 128 := by
  simp only [isRefUnit, isAlpha, Bool.or_eq_true, beq_iff_eq] at allowed
  rcases allowed with (((letter | digit) | rfl) | rfl) | rfl
  · rcases letter with lower | upper
    · exact ascii_range (by decide) (by decide) lower
    · exact ascii_range (by decide) (by decide) upper
  · exact ascii_range (by decide) (by decide) digit
  · decide
  · decide
  · decide

private theorem ascii_keyUnit {c : CodeUnit} (allowed : isKeyUnit c = true) : 0 < c ∧ c < 128 := by
  simp only [isKeyUnit, Bool.or_eq_true] at allowed
  rcases allowed with lower | digit
  · exact ascii_range (by decide) (by decide) lower
  · exact ascii_range (by decide) (by decide) digit

/-- A ref is text a bank stores. -/
theorem ascii_of_isRef {ref : JsString} (valid : isRef ref = true) : isAsciiText ref = true := by
  simp only [isRef, Bool.and_eq_true, List.all_eq_true] at valid
  exact ascii_of_units (fun c => ascii_refUnit) valid.2

theorem ascii_of_isSkillKey {key : JsString} (valid : isSkillKey key = true) :
    isAsciiText key = true := by
  simp only [isSkillKey, List.all_eq_true, Bool.and_eq_true] at valid
  rw [isAsciiText, List.all_eq_true]
  intro c inside
  rw [Bool.and_eq_true, decide_eq_true_eq, decide_eq_true_eq]
  rcases mem_segment (p := fun c => c == unit '-' || c == unit '.') inside with
    separator | ⟨segment, member, within⟩
  · simp only [Bool.or_eq_true, beq_iff_eq] at separator
    rcases separator with rfl | rfl
    · decide
    · decide
  · exact ascii_keyUnit ((valid segment member).2 c within)

theorem refSchema_accepts {ref : JsString} :
    RefSchema.Accepts ref ↔ (1 ≤ ref.length ∧ ref.length ≤ 200) ∧ isRef ref = true := by
  unfold RefSchema
  rw [Schema.string, Schema.accepts_scalar]
  simp [minLength, maxLength, and_assoc]

theorem skillKeySchema_accepts {key : JsString} :
    SkillKeySchema.Accepts key ↔ (1 ≤ key.length ∧ key.length ≤ 120) ∧ isSkillKey key = true := by
  unfold SkillKeySchema
  rw [Schema.string, Schema.accepts_scalar]
  simp [minLength, maxLength, and_assoc]

private theorem fits_ref {ref : JsString} :
    Fits storableText RefSchema ref ↔ RefSchema.Accepts ref :=
  and_iff_left_of_imp fun accepted =>
    isCharacterText_of_ascii (ascii_of_isRef (refSchema_accepts.mp accepted).2)

private theorem fits_skillKey {key : JsString} :
    Fits storableText SkillKeySchema key ↔ SkillKeySchema.Accepts key := by
  apply and_iff_left_of_imp
  intro accepted
  apply isCharacterText_of_ascii
  apply ascii_of_isSkillKey
  exact (skillKeySchema_accepts.mp accepted).2

private theorem fits_skill {skill : BankSkill} :
    Fits storableText BankSkillSchema skill ↔ SkillFits skill := by
  rw [BankSkillSchema]
  simp (disch := decide) only [fits_strictObject, fieldsFit_both, fieldsFit_field, fits_skillKey,
    fits_weight, Equiv.coe_fn_symm_mk]
  exact ⟨fun ⟨key, weight⟩ => ⟨key, weight⟩, fun fits => ⟨fits.key, fits.weight⟩⟩

private theorem fits_shape {item : BankItem} :
    Fits storableText BankItemShape item ↔
      RefSchema.Accepts item.ref ∧
        (∀ licence, item.sourceLicense = some licence → TextFits storableText 1 100 licence) ∧
        (∀ external, item.externalRef = some external → TextFits storableText 1 200 external) ∧
        (∀ skill ∈ item.skills, SkillFits skill) ∧ item.skills.length ≤ 50 ∧
        (∀ version ∈ item.versions,
          (1 ≤ version.versionNo ∧ version.versionNo ≤ MAX_SAFE_INTEGER) ∧
            VersionFits storableText version) ∧
        1 ≤ item.versions.length ∧ item.versions.length ≤ MAX_BANK_VERSIONS := by
  rw [BankItemShape]
  simp (disch := decide) only [fits_strictObject, fieldsFit_both, fieldsFit_field, fits_nullable,
    fits_ref, fits_kind, fits_status, SourceLicenseSchema, ExternalRefSchema, fits_between,
    fits_atMost, fits_within, fits_skill, fits_version, true_and, Equiv.coe_fn_symm_mk, and_assoc]

private theorem storableIssues_eq_nil {item : BankItem} :
    storableIssues item = [] ↔
      everyString storableText.holds (BankItemShape.encode item) = true := by
  rw [storableIssues, List.map_eq_nil_iff]
  exact unstorableStrings_eq_nil _ _

private theorem versionNumberIssues_eq_nil {item : BankItem} :
    versionNumberIssues item = [] ↔
      (item.versions.map BankVersion.versionNo).Pairwise (· < ·) := by
  rw [versionNumberIssues, List.map_eq_nil_iff]
  exact nonAscending_eq_nil _ _

private theorem skillIssues_eq_nil {item : BankItem} :
    skillIssues item = [] ↔ (item.skills.map BankSkill.key).Nodup := by
  unfold skillIssues
  split <;> simp_all

private theorem statusIssues_eq_nil {item : BankItem} :
    statusIssues item = [] ↔ isServed item.status = item.versions.any BankVersion.published := by
  unfold statusIssues
  simp only [beq_iff_eq]
  split <;> simp_all

/-- The check accepts an item exactly when every part of it fits. -/
theorem accepted_iff_fits {item : BankItem} : Accepted item ↔ ItemFits item := by
  have shaped : BankItemSchema.Accepts item ↔ Fits storableText BankItemShape item ∧
      versionNumberIssues item = [] ∧ skillIssues item = [] ∧ statusIssues item = [] := by
    unfold BankItemSchema Fits
    rw [Schema.accepts_refine, ← storableIssues_eq_nil]
    simp only [List.append_eq_nil_iff, and_assoc]
  rw [accepted_iff, shaped, fits_shape, versionNumberIssues_eq_nil, skillIssues_eq_nil,
    statusIssues_eq_nil]
  constructor
  · rintro ⟨⟨⟨ref, licence, external, skills, count, versions, some, most⟩, ascending, distinct,
      status⟩, kinds⟩
    exact ⟨ref, licence, external, skills, count, distinct, fun v inside => (versions v inside).2,
      fun v inside => (versions v inside).1, ⟨some, most⟩, ascending, status, kinds⟩
  · intro fits
    exact ⟨⟨⟨fits.ref, fits.sourceLicense, fits.externalRef, fits.skills, fits.skillCount,
      fun v inside => ⟨fits.numbers v inside, fits.versions v inside⟩, fits.versionCount.1,
      fits.versionCount.2⟩, fits.ascending, fits.distinct, fits.status⟩, fits.kinds⟩

end Assaybank.Interchange
