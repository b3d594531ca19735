import Assaybank.Bank.Effect
import Assaybank.Interchange.Stored

/-!
Owns that content written through the API fits the interchange schemas: a body laid over content
that fits comes to content that fits, and so does what is stored of it.
-/

namespace Assaybank.Bank

open Assaybank.Runtime Assaybank.Library Assaybank.Contracts Assaybank.Domain Assaybank.Db
open Assaybank.Interchange

/-! ### Defaults -/

private theorem fits_default {least score : Decimal} (within : least ≤ score ∧
    score ≤ MAX_SCORE_VALUE ∧ hasAtMostTwoDecimals score = true) : ScoreFits least score :=
  scoreFits_iff.mpr within

/-- What an empty field is given passes the check of the field. -/
theorem defaults_fit : TextFits .any 2 35 DEFAULT_LOCALE ∧
    (1 ≤ DEFAULT_EST_SECONDS ∧ DEFAULT_EST_SECONDS ≤ 86400) ∧ ScoreFits 0 DEFAULT_MAX_SCORE ∧
    ScoreFits 0 DEFAULT_NEGATIVE_SCORE ∧
    (100 ≤ DEFAULT_TIME_LIMIT_MS ∧ DEFAULT_TIME_LIMIT_MS ≤ 60000) ∧
    (1024 ≤ DEFAULT_MEMORY_LIMIT_KB ∧ DEFAULT_MEMORY_LIMIT_KB ≤ 2097152) ∧
    ScoreFits MIN_CASE_WEIGHT DEFAULT_TEST_CASE_WEIGHT ∧
    ScoreFits MIN_SCORE_VALUE DEFAULT_ANSWER_KEY_SCORE :=
  ⟨by unfold TextFits; decide, by decide, fits_default (by decide +kernel),
    fits_default (by decide +kernel), by decide, by decide, fits_default (by decide +kernel),
    fits_default (by decide +kernel)⟩

/-! ### What a body supplies -/

section Inputs

variable {text : TextRule}

private theorem fits_optionInput {input : McqOptionInput}
    (fits : Fits text McqOptionInputSchema input) :
    OptionFits text (toBankOption (optionFrom input)) := by
  rw [McqOptionInputSchema] at fits
  simp (disch := decide) only [fits_strictObject, fieldsFit_both, fieldsFit_field,
    fieldsFit_optional, fieldsFit_withDefault, fits_nullable, fits_between, fits_most, fits_bool,
    fits_score, true_and, Equiv.coe_fn_symm_mk] at fits
  obtain ⟨body, delta, rationale⟩ := fits
  refine ⟨body, ?_, ?_⟩
  · intro found joined
    exact delta _ (Option.join_eq_some_iff.mp joined) _ rfl
  · intro found joined
    exact rationale _ (Option.join_eq_some_iff.mp joined) _ rfl

private theorem fits_caseInput {input : TestCaseInput}
    (fits : Fits text TestCaseInputSchema input) :
    CaseFits text (toBankCase (testCaseFrom input)) := by
  rw [TestCaseInputSchema] at fits
  simp (disch := decide) only [fits_strictObject, fieldsFit_both, fieldsFit_optional,
    fieldsFit_withDefault, fits_nullable, fits_most, fits_free, fits_list, fits_bool, fits_score,
    true_and, Equiv.coe_fn_symm_mk] at fits
  obtain ⟨label, stdin, expected, args, assertion, weight⟩ := fits
  refine ⟨?_, stdin, ?_, ?_, ?_, ?_⟩
  · intro found joined
    exact label _ (Option.join_eq_some_iff.mp joined) _ rfl
  · intro found joined
    exact expected _ (Option.join_eq_some_iff.mp joined) _ rfl
  · intro found joined
    exact args _ (Option.join_eq_some_iff.mp joined) _ rfl
  · intro found joined
    exact assertion _ (Option.join_eq_some_iff.mp joined) _ rfl
  · show ScoreFits MIN_CASE_WEIGHT (input.weight.getD DEFAULT_TEST_CASE_WEIGHT)
    cases named : input.weight with
    | none => exact defaults_fit.2.2.2.2.2.2.1
    | some given => exact weight given named

private theorem fits_keyInput {input : AnswerKeyInput}
    (fits : Fits text AnswerKeyInputSchema input) :
    KeyFits text (toBankKey (answerKeyFrom input)) := by
  rw [AnswerKeyInputSchema] at fits
  simp (disch := decide) only [fits_strictObject, fieldsFit_both, fieldsFit_field,
    fieldsFit_optional, fits_nullable, fits_between, fits_tolerance, fits_matchType, fits_score,
    true_and, Equiv.coe_fn_symm_mk] at fits
  obtain ⟨pattern, tolerance, score⟩ := fits
  refine ⟨pattern, ?_, ?_⟩
  · intro found joined
    exact tolerance _ (Option.join_eq_some_iff.mp joined) _ rfl
  · show ScoreFits MIN_SCORE_VALUE (input.score.getD DEFAULT_ANSWER_KEY_SCORE)
    cases named : input.score with
    | none => exact defaults_fit.2.2.2.2.2.2.2
    | some given => exact score given named

/-- What a field comes to: what is named, or else what is there. -/
private theorem getD_of {α : Type} {named : Option α} {fallback : α} (good : α → Prop)
    (given : ∀ a, named = some a → good a) (kept : good fallback) : good (named.getD fallback) := by
  cases named with
  | none => exact kept
  | some a => exact given a rfl

private theorem elim_of {α β : Type} {prior : Option α} {absent : β} {part : α → β}
    (good : β → Prop) (defaulted : good absent) (kept : ∀ a, prior = some a → good (part a)) :
    good (prior.elim absent part) := by
  cases prior with
  | none => exact defaulted
  | some a => exact kept a rfl

/-- What a specification patch keeps of the one it is laid over. -/
private theorem fits_base {prior : Option CodingSpecContent}
    (kept : ∀ spec, prior = some spec → SpecFits text (toBankSpec spec)) :
    let base := prior.getD emptyCodingSpec
    (∀ entry ∈ base.starterCode, EntryFits text entry) ∧
      (∀ entry ∈ base.solutionCode, EntryFits text entry) ∧
      (100 ≤ base.timeLimitMs ∧ base.timeLimitMs ≤ 60000) ∧
      (1024 ≤ base.memoryLimitKb ∧ base.memoryLimitKb ≤ 2097152) ∧
      (∀ checker, base.checkerCode = some checker → text.holds checker = true) ∧
      ∀ fixture, base.fixtureSql = some fixture → text.holds fixture = true := by
  cases prior with
  | none =>
      refine ⟨?_, ?_, defaults_fit.2.2.2.2.1, defaults_fit.2.2.2.2.2.1, ?_, ?_⟩ <;>
        simp [emptyCodingSpec]
  | some spec =>
      have fits := kept spec rfl
      exact ⟨fits.starterCode, fits.solutionCode, fits.timeLimitMs, fits.memoryLimitKb,
        fits.checkerCode, fits.fixtureSql⟩

private theorem fits_mergeCodingSpec {prior : Option CodingSpecContent}
    {patch : Option (Option CodingSpecInput)}
    (kept : ∀ spec, prior = some spec → SpecFits text (toBankSpec spec))
    (fits : ∀ named, patch = some named → ∀ input, named = some input →
      Fits text CodingSpecInputSchema input) :
    ∀ spec, mergeCodingSpec prior patch = some spec → SpecFits text (toBankSpec spec) := by
  intro spec merged
  match patch, merged with
  | none, merged => exact kept spec merged
  | some (some input), merged =>
      cases merged
      have fits := fits _ rfl _ rfl
      rw [CodingSpecInputSchema] at fits
      simp (disch := decide) only [fits_strictObject, fieldsFit_both, fieldsFit_field,
        fieldsFit_optional, fits_nullable, fits_between, fits_free, fits_within, fits_entries,
        fits_safeInteger, fits_gradingMode, Equiv.coe_fn_symm_mk] at fits
      obtain ⟨⟨languages, count⟩, starter, solution, time, memory, mode, checker, fixture⟩ := fits
      obtain ⟨starterKept, solutionKept, timeKept, memoryKept, checkerKept, fixtureKept⟩ :=
        fits_base kept
      exact ⟨languages, count, getD_of _ starter starterKept, getD_of _ solution solutionKept,
        getD_of _ time timeKept, getD_of _ memory memoryKept, getD_of _ checker checkerKept,
        getD_of _ fixture fixtureKept⟩

end Inputs

/-! ### What a version comes to -/

private theorem fits_supplied {α β : Type} {schema : Schema α} {part : α → β} (good : β → Prop)
    {most : Nat} (each : ∀ input, Fits .any schema input → good (part input))
    {supplied : Option (List α)} {kept : List β}
    (fits : ∀ inputs, supplied = some inputs →
      (∀ input ∈ inputs, Fits .any schema input) ∧ inputs.length ≤ most)
    (earlier : (∀ item ∈ kept, good item) ∧ kept.length ≤ most) :
    (∀ item ∈ (supplied.map fun inputs => inputs.map part).getD kept, good item) ∧
      ((supplied.map fun inputs => inputs.map part).getD kept).length ≤ most := by
  cases supplied with
  | none => exact earlier
  | some inputs =>
      obtain ⟨all, count⟩ := fits inputs rfl
      refine ⟨?_, by simpa using count⟩
      intro item inside
      obtain ⟨input, within, rfl⟩ := List.mem_map.mp inside
      exact each input (all input within)

/-- The children a version inherits. -/
private theorem inherited {α : Type} {prior : Option VersionContent}
    {part : VersionContent → List α} {good : α → Prop} {most : Nat}
    (kept : ∀ content, prior = some content →
      (∀ item ∈ part content, good item) ∧ (part content).length ≤ most) :
    (∀ item ∈ prior.elim [] part, good item) ∧ (prior.elim [] part).length ≤ most := by
  cases prior with
  | none => simp
  | some content => exact kept content rfl

/-- A body the schema accepts, laid over content that fits, comes to content that fits. -/
theorem fits_mergeVersionContent {prior : Option VersionContent} {body : QuestionVersionInput}
    {merged : VersionContent} (accepted : QuestionVersionInputSchema.Accepts body)
    (kept : ∀ content, prior = some content → ContentFits .any content)
    (came : mergeVersionContent prior body = some merged) : ContentFits .any merged := by
  have fits := fits_any.mpr accepted
  rw [QuestionVersionInputSchema] at fits
  simp (disch := decide) only [fits_strictObject, fieldsFit_both, fieldsFit_optional,
    fits_nullable, fits_between, fits_most, DifficultySchema, fits_safeInteger, fits_score,
    fits_atMost, Equiv.coe_fn_symm_mk] at fits
  obtain ⟨locale, prompt, explanation, difficulty, seconds, score, negative, options, spec, cases,
    keys⟩ := fits
  unfold mergeVersionContent at came
  split at came
  · rename_i promptMd level prompted levelled
    split at came
    · cases came
    · rename_i inScale
      cases came
      have promptFits : TextFits .any 1 MAX_PROMPT_LENGTH promptMd := by
        rcases Option.or_eq_some_iff.mp prompted with named | ⟨_, earlier⟩
        · exact prompt promptMd named
        · obtain ⟨content, here, rfl⟩ := Option.map_eq_some_iff.mp earlier
          exact (kept content here).promptMd
      have optionsFit := fits_supplied (fun o => OptionFits .any (toBankOption o))
        (fun _ => fits_optionInput) options
        (inherited fun content here => ⟨(kept content here).options, (kept content here).optionCount⟩)
      have casesFit := fits_supplied (fun c => CaseFits .any (toBankCase c))
        (fun _ => fits_caseInput) cases
        (inherited fun content here =>
          ⟨(kept content here).testCases, (kept content here).testCaseCount⟩)
      have keysFit := fits_supplied (fun k => KeyFits .any (toBankKey k))
        (fun _ => fits_keyInput) keys
        (inherited fun content here =>
          ⟨(kept content here).answerKeys, (kept content here).answerKeyCount⟩)
      constructor
      · exact getD_of _ locale
          (elim_of _ defaults_fit.1 fun content here => (kept content here).locale)
      · exact promptFits
      · apply getD_of (fun text => ∀ explanation, text = some explanation →
          TextFits .any 0 MAX_EXPLANATION_LENGTH explanation) explanation
        intro text inherits
        obtain ⟨content, here, found⟩ := Option.bind_eq_some_iff.mp inherits
        exact (kept content here).explanationMd text found
      · exact ⟨not_lt.mp fun low => inScale (.inl low), not_lt.mp fun high => inScale (.inr high)⟩
      · exact getD_of (fun n => 1 ≤ n ∧ n ≤ 86400) seconds
          (elim_of (fun n => 1 ≤ n ∧ n ≤ 86400) defaults_fit.2.1 fun content here =>
            (kept content here).estSeconds)
      · exact getD_of _ score
          (elim_of _ defaults_fit.2.2.1 fun content here => (kept content here).maxScore)
      · exact getD_of _ negative
          (elim_of _ defaults_fit.2.2.2.1 fun content here => (kept content here).negativeScore)
      · exact optionsFit.1
      · exact optionsFit.2
      · apply fits_mergeCodingSpec _ spec
        intro earlier inherits
        obtain ⟨content, here, found⟩ := Option.bind_eq_some_iff.mp inherits
        exact (kept content here).codingSpec earlier found
      · exact casesFit.1
      · exact casesFit.2
      · exact keysFit.1
      · exact keysFit.2
  · cases came

end Assaybank.Bank
