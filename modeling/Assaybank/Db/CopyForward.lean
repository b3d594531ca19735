import Assaybank.Db.VersionContent

/-!
Owns what copying forward does to each field of a version
(`packages/db/src/version-content.ts`): the fields a patch names, the fields it leaves, and
two patches one after the other.

Contract: a collection is replaced as a whole, and the coding specification field by field,
over the schema's defaults where there was none. It does not own whether a patch is valid on
its own.
-/

namespace Assaybank.Db

open Assaybank.Runtime Assaybank.Contracts Assaybank.Domain

/-! ### Fields -/

/-- The fields of a version that a patch replaces as a whole. -/
inductive VersionField where
  | locale
  | promptMd
  | explanationMd
  | difficulty
  | estSeconds
  | maxScore
  | negativeScore
  | options
  | testCases
  | answerKeys
deriving DecidableEq

namespace VersionField

/-- What a field holds. -/
def Value : VersionField → Type
  | locale => JsString
  | promptMd => JsString
  | explanationMd => Option JsString
  | difficulty => Int
  | estSeconds => Int
  | maxScore => Decimal
  | negativeScore => Decimal
  | options => List McqOptionContent
  | testCases => List TestCaseContent
  | answerKeys => List AnswerKeyContent

/-- A field of stored content. -/
def stored : (field : VersionField) → VersionContent → field.Value
  | locale, content => content.locale
  | promptMd, content => content.promptMd
  | explanationMd, content => content.explanationMd
  | difficulty, content => content.difficulty
  | estSeconds, content => content.estSeconds
  | maxScore, content => content.maxScore
  | negativeScore, content => content.negativeScore
  | options, content => content.options
  | testCases, content => content.testCases
  | answerKeys, content => content.answerKeys

/-- A field of a patch; `none` where the patch does not name it. -/
def named : (field : VersionField) → QuestionVersionInput → Option field.Value
  | locale, input => input.locale
  | promptMd, input => input.promptMd
  | explanationMd, input => input.explanationMd
  | difficulty, input => input.difficulty
  | estSeconds, input => input.estSeconds
  | maxScore, input => input.maxScore
  | negativeScore, input => input.negativeScore
  | options, input => input.options.map fun options => options.map optionFrom
  | testCases, input => input.testCases.map fun cases => cases.map testCaseFrom
  | answerKeys, input => input.answerKeys.map fun keys => keys.map answerKeyFrom

end VersionField

/-- The fields of a coding specification. -/
inductive SpecField where
  | allowedLanguages
  | starterCode
  | solutionCode
  | timeLimitMs
  | memoryLimitKb
  | gradingMode
  | checkerCode
  | fixtureSql
deriving DecidableEq

namespace SpecField

def Value : SpecField → Type
  | allowedLanguages => List JsString
  | starterCode => List (JsString × JsString)
  | solutionCode => List (JsString × JsString)
  | timeLimitMs => Int
  | memoryLimitKb => Int
  | gradingMode => GradingMode
  | checkerCode => Option JsString
  | fixtureSql => Option JsString

def stored : (field : SpecField) → CodingSpecContent → field.Value
  | allowedLanguages, spec => spec.allowedLanguages
  | starterCode, spec => spec.starterCode
  | solutionCode, spec => spec.solutionCode
  | timeLimitMs, spec => spec.timeLimitMs
  | memoryLimitKb, spec => spec.memoryLimitKb
  | gradingMode, spec => spec.gradingMode
  | checkerCode, spec => spec.checkerCode
  | fixtureSql, spec => spec.fixtureSql

/-- A field of a specification's patch, which always names its languages. -/
def named : (field : SpecField) → CodingSpecInput → Option field.Value
  | allowedLanguages, input => some input.allowedLanguages
  | starterCode, input => input.starterCode
  | solutionCode, input => input.solutionCode
  | timeLimitMs, input => input.timeLimitMs
  | memoryLimitKb, input => input.memoryLimitKb
  | gradingMode, input => input.gradingMode
  | checkerCode, input => input.checkerCode
  | fixtureSql, input => input.fixtureSql

/-- The schema's default. -/
def schemaDefault (field : SpecField) : field.Value := field.stored emptyCodingSpec

/-- The field of a specification there may be, or the schema's default. -/
def inherited (field : SpecField) (prior : Option CodingSpecContent) : field.Value :=
  prior.elim field.schemaDefault field.stored

end SpecField

/-! ### One patch -/

section Patch

variable {prior merged : VersionContent} {input : QuestionVersionInput}

/-- The difficulty a patch leaves. -/
def difficultyAfter (prior : VersionContent) (input : QuestionVersionInput) : Int :=
  input.difficulty.getD prior.difficulty

private theorem or_some {α : Type} (first : Option α) (second : α) :
    first.or (some second) = some (first.getD second) := by
  cases first with
  | none => rfl
  | some value => rfl

/-- A patch over stored content is refused only for a difficulty outside the scale. -/
theorem mergeVersionContent_isSome :
    (mergeVersionContent (some prior) input).isSome = true ↔
      MIN_DIFFICULTY ≤ difficultyAfter prior input ∧
        difficultyAfter prior input ≤ MAX_DIFFICULTY := by
  unfold mergeVersionContent difficultyAfter
  rw [Option.map_some, Option.map_some, or_some, or_some]
  simp only
  split
  · rename_i outside
    refine iff_of_false (by simp) ?_
    omega
  · rename_i inside
    refine iff_of_true rfl ?_
    omega

/-- What a merge writes. -/
private theorem merge_eq (made : mergeVersionContent (some prior) input = some merged) :
    (∀ field : VersionField, field.stored merged = (field.named input).getD (field.stored prior)) ∧
      merged.codingSpec = mergeCodingSpec prior.codingSpec input.codingSpec := by
  unfold mergeVersionContent at made
  rw [Option.map_some, Option.map_some, or_some, or_some] at made
  simp only at made
  split at made
  · cases made
  · cases made
    refine ⟨?_, rfl⟩
    intro field
    cases field <;> rfl

/-- A field is the patch's where the patch names it, and otherwise what it was. -/
theorem stored_merge (made : mergeVersionContent (some prior) input = some merged)
    (field : VersionField) : field.stored merged = (field.named input).getD (field.stored prior) :=
  (merge_eq made).1 field

theorem codingSpec_merge (made : mergeVersionContent (some prior) input = some merged) :
    merged.codingSpec = mergeCodingSpec prior.codingSpec input.codingSpec :=
  (merge_eq made).2

/-- Content is its fields. -/
theorem VersionContent.ext_fields {one other : VersionContent}
    (same : ∀ field : VersionField, field.stored one = field.stored other)
    (specs : one.codingSpec = other.codingSpec) : one = other := by
  cases one
  cases other
  have locales := same .locale
  have prompts := same .promptMd
  have explanations := same .explanationMd
  have difficulties := same .difficulty
  have times := same .estSeconds
  have scores := same .maxScore
  have penalties := same .negativeScore
  have options := same .options
  have cases' := same .testCases
  have keys := same .answerKeys
  simp only [VersionField.stored] at *
  subst locales prompts explanations difficulties times scores penalties options cases' keys specs
  rfl

/-- What a patch's specification leaves of the one there was. -/
def SpecAfter (prior : Option CodingSpecContent) (patch : Option (Option CodingSpecInput))
    (after : Option CodingSpecContent) : Prop :=
  match patch with
  | none => after = prior
  | some none => after = none
  | some (some given) =>
      ∃ spec, after = some spec ∧
        ∀ field : SpecField, field.stored spec = (field.named given).getD (field.inherited prior)

theorem specAfter_merge (prior : Option CodingSpecContent)
    (patch : Option (Option CodingSpecInput)) :
    SpecAfter prior patch (mergeCodingSpec prior patch) := by
  rcases patch with _ | _ | given
  · rfl
  · rfl
  · refine ⟨_, rfl, ?_⟩
    intro field
    cases prior with
    | none => cases field <;> rfl
    | some spec => cases field <;> rfl

/-- A specification is its fields. -/
theorem CodingSpecContent.ext_fields {one other : CodingSpecContent}
    (same : ∀ field : SpecField, field.stored one = field.stored other) : one = other := by
  cases one
  cases other
  have languages := same .allowedLanguages
  have starters := same .starterCode
  have solutions := same .solutionCode
  have times := same .timeLimitMs
  have memories := same .memoryLimitKb
  have modes := same .gradingMode
  have checkers := same .checkerCode
  have fixtures := same .fixtureSql
  simp only [SpecField.stored] at *
  subst languages starters solutions times memories modes checkers fixtures
  rfl

end Patch

/-! ### Two patches -/

/-- The field of the specification a first patch leaves, as a second one finds it: the schema's
default where the first cleared the specification. -/
def SpecField.handedOn (field : SpecField) (prior : Option CodingSpecContent)
    (patch : Option (Option CodingSpecInput)) : field.Value :=
  match patch with
  | none => field.inherited prior
  | some none => field.schemaDefault
  | some (some given) => (field.named given).getD (field.inherited prior)

private theorem inherited_merge (field : SpecField) (prior : Option CodingSpecContent)
    (patch : Option (Option CodingSpecInput)) :
    field.inherited (mergeCodingSpec prior patch) = field.handedOn prior patch := by
  rcases patch with _ | _ | given
  · rfl
  · rfl
  · obtain ⟨spec, after, fields⟩ := specAfter_merge prior (some (some given))
    rw [after]
    exact fields field

private theorem getD_getD {α : Type} (named : Option α) (value : α) :
    named.getD (named.getD value) = named.getD value := by
  cases named with
  | none => rfl
  | some given => rfl

private theorem mergeCodingSpec_twice (prior : Option CodingSpecContent)
    (patch : Option (Option CodingSpecInput)) :
    mergeCodingSpec (mergeCodingSpec prior patch) patch = mergeCodingSpec prior patch := by
  rcases patch with _ | _ | given
  · rfl
  · rfl
  · obtain ⟨once, first, onceFields⟩ := specAfter_merge prior (some (some given))
    obtain ⟨twice, second, twiceFields⟩ :=
      specAfter_merge (mergeCodingSpec prior (some (some given))) (some (some given))
    rw [second, first]
    apply congrArg some
    apply CodingSpecContent.ext_fields
    intro field
    rw [twiceFields field, onceFields field, inherited_merge]
    exact getD_getD _ _

/-- Applying a patch again changes nothing. -/
theorem mergeVersionContent_twice {prior merged : VersionContent} {input : QuestionVersionInput}
    (made : mergeVersionContent (some prior) input = some merged) :
    mergeVersionContent (some merged) input = some merged := by
  have sameDifficulty : difficultyAfter merged input = difficultyAfter prior input := by
    have difficulty := stored_merge made .difficulty
    show input.difficulty.getD merged.difficulty = input.difficulty.getD prior.difficulty
    rw [show merged.difficulty = input.difficulty.getD prior.difficulty from difficulty]
    exact getD_getD _ _
  have inScale := mergeVersionContent_isSome.mp (Option.isSome_of_eq_some made)
  rw [← sameDifficulty] at inScale
  obtain ⟨again, madeAgain⟩ := Option.isSome_iff_exists.mp (mergeVersionContent_isSome.mpr inScale)
  rw [madeAgain]
  apply congrArg some
  apply VersionContent.ext_fields
  · intro field
    rw [stored_merge madeAgain field, stored_merge made field]
    exact getD_getD _ _
  · rw [codingSpec_merge madeAgain, codingSpec_merge made]
    exact mergeCodingSpec_twice _ _

/-- A patch leaves the fields it does not name, and those of a specification it names in part. -/
structure LeavesUnnamed (prior : VersionContent) (input : QuestionVersionInput)
    (after : VersionContent) : Prop where
  fields : ∀ field : VersionField, field.named input = none →
    field.stored after = field.stored prior
  codingSpec : input.codingSpec = none → after.codingSpec = prior.codingSpec
  specFields : ∀ given spec, input.codingSpec = some (some given) → prior.codingSpec = some spec →
    ∃ later, after.codingSpec = some later ∧
      ∀ field : SpecField, field.named given = none → field.stored later = field.stored spec

/-- After two patches every field is the second's if it names it, else the first's if it names
it, else what it was. -/
structure PatchedTwice (prior : VersionContent) (p q : QuestionVersionInput)
    (after : VersionContent) : Prop where
  fields : ∀ field : VersionField,
    field.stored after = ((field.named q).or (field.named p)).getD (field.stored prior)
  unnamedSpec : q.codingSpec = none → SpecAfter prior.codingSpec p.codingSpec after.codingSpec
  clearedSpec : q.codingSpec = some none → after.codingSpec = none
  givenSpec : ∀ given, q.codingSpec = some (some given) → ∃ spec, after.codingSpec = some spec ∧
    ∀ field : SpecField, field.stored spec =
      (field.named given).getD (field.handedOn prior.codingSpec p.codingSpec)

theorem leavesUnnamed_merge {prior after : VersionContent} {input : QuestionVersionInput}
    (made : mergeVersionContent (some prior) input = some after) :
    LeavesUnnamed prior input after where
  fields := by
    intro field unnamed
    rw [stored_merge made field, unnamed]
    rfl
  codingSpec := by
    intro unnamed
    rw [codingSpec_merge made, unnamed]
    rfl
  specFields := by
    intro given spec named had
    obtain ⟨later, is, fields⟩ := specAfter_merge prior.codingSpec (some (some given))
    refine ⟨later, ?_, ?_⟩
    · rw [codingSpec_merge made, named]
      exact is
    · intro field unnamed
      rw [fields field, unnamed, had]
      rfl

theorem patchedTwice_merge {prior afterP afterQ : VersionContent} {p q : QuestionVersionInput}
    (first : mergeVersionContent (some prior) p = some afterP)
    (second : mergeVersionContent (some afterP) q = some afterQ) :
    PatchedTwice prior p q afterQ where
  fields := by
    intro field
    rw [stored_merge second field, stored_merge first field]
    cases field.named q with
    | none => rfl
    | some value => rfl
  unnamedSpec := by
    intro unnamed
    rw [codingSpec_merge second, unnamed]
    show SpecAfter prior.codingSpec p.codingSpec afterP.codingSpec
    rw [codingSpec_merge first]
    exact specAfter_merge _ _
  clearedSpec := by
    intro cleared
    rw [codingSpec_merge second, cleared]
    rfl
  givenSpec := by
    intro given named
    obtain ⟨spec, is, fields⟩ := specAfter_merge afterP.codingSpec (some (some given))
    refine ⟨spec, ?_, ?_⟩
    · rw [codingSpec_merge second, named]
      exact is
    · intro field
      rw [fields field, codingSpec_merge first, inherited_merge]

/-- **Copy-forward.** A patch of stored content is refused only for a difficulty outside the
scale; it leaves what it does not name; applied again it changes nothing; and of two patches the
later one decides every field it names. -/
theorem mergeVersionContent_copies_forward (prior : VersionContent) (p q : QuestionVersionInput) :
    ((mergeVersionContent (some prior) p).isSome = true ↔
      MIN_DIFFICULTY ≤ difficultyAfter prior p ∧ difficultyAfter prior p ≤ MAX_DIFFICULTY) ∧
    (∀ afterP ∈ mergeVersionContent (some prior) p, LeavesUnnamed prior p afterP) ∧
    ((mergeVersionContent (some prior) p).bind fun afterP => mergeVersionContent (some afterP) p) =
      mergeVersionContent (some prior) p ∧
    ∀ afterP ∈ mergeVersionContent (some prior) p, ∀ afterQ ∈ mergeVersionContent (some afterP) q,
      PatchedTwice prior p q afterQ := by
  refine ⟨mergeVersionContent_isSome, ?_, ?_, ?_⟩
  · intro afterP made
    exact leavesUnnamed_merge made
  · cases made : mergeVersionContent (some prior) p with
    | none => rfl
    | some afterP => exact mergeVersionContent_twice made
  · intro afterP first afterQ second
    exact patchedTwice_merge first second

end Assaybank.Db
