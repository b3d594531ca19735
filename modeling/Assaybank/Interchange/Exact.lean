import Assaybank.Interchange.Stored
import Assaybank.Runtime.Number

/-!
Owns what the database keeps of an accepted version without a change.

Contract: a version whose text is storable and whose scores and weights are hundredths is taken,
and read back as it was written (`takesContent_of_fits`, `storedContent_eq_self`). A tolerance is
kept whatever it is.
-/

namespace Assaybank.Interchange

open Assaybank.Runtime Assaybank.Library Assaybank.Contracts Assaybank.Db

/-! ### Text -/

/-- Storable text has no unpaired surrogate to replace. -/
theorem toWellFormed_eq_self {s : JsString} (storable : isStorable s = true) :
    toWellFormed s = s := by
  unfold isStorable at storable
  fun_induction isCharacterText s with
  | case1 => rfl
  | case2 c =>
      simp only [Bool.and_eq_true, Bool.not_eq_true'] at storable
      rw [toWellFormed, storable.1.2, storable.2]
      rfl
  | case3 c d rest high inductionHypothesis =>
      simp only [Bool.and_eq_true] at storable
      rw [toWellFormed, if_pos high, if_pos storable.1, inductionHypothesis storable.2]
  | case4 c d rest notHigh inductionHypothesis =>
      simp only [Bool.and_eq_true, Bool.not_eq_true'] at storable
      rw [toWellFormed, if_neg notHigh, storable.1.2, inductionHypothesis storable.2]
      rfl

theorem takesText_of_isStorable {s : JsString} (storable : isStorable s = true) :
    takesText s = true := by
  unfold isStorable at storable
  fun_induction isCharacterText s with
  | case1 => rfl
  | case2 c =>
      simp only [Bool.and_eq_true, bne_iff_ne] at storable
      simpa [takesText] using Ne.symm storable.1.1
  | case3 c d rest high inductionHypothesis =>
      simp only [Bool.and_eq_true] at storable
      have later := inductionHypothesis storable.2
      have first : 0 ≠ c := by
        rintro rfl
        exact absurd high (by decide)
      have second : 0 ≠ d := by
        rintro rfl
        exact absurd storable.1 (by decide)
      simp_all [takesText]
  | case4 c d rest notHigh inductionHypothesis =>
      simp only [Bool.and_eq_true, bne_iff_ne] at storable
      have later := inductionHypothesis storable.2
      simp_all [takesText, Ne.symm storable.1.1]

theorem takesJsonText_of_isStorable {s : JsString} (storable : isStorable s = true) :
    takesJsonText s = true := by
  rw [takesJsonText, takesText_of_isStorable storable, toWellFormed_eq_self storable]
  exact beq_self_eq_true s

/-! ### Hundredths -/

theorem toFixed2_eq_self {d : Decimal} (exact : IsHundredths d) : toFixed2 d = d := by
  obtain ⟨n, whole⟩ := exact
  apply Decimal.toRat_injective
  have stored := toRat_toFixed2 d
  rw [whole, round_intCast, ← whole] at stored
  exact mul_right_cancel₀ (by norm_num) stored

/-! ### A version -/

/-- Every score and weight of a version is of hundredths. -/
structure ExactVersion (version : BankVersion) : Prop where
  maxScore : IsHundredths version.maxScore
  negativeScore : IsHundredths version.negativeScore
  options : ∀ option ∈ version.options, ∀ delta ∈ option.scoreDelta, IsHundredths delta
  testCases : ∀ testCase ∈ version.testCases, IsHundredths testCase.weight
  answerKeys : ∀ key ∈ version.answerKeys, IsHundredths key.score

theorem map_toWellFormed {text : Option JsString}
    (storable : ∀ s, text = some s → isStorable s = true) : text.map toWellFormed = text := by
  cases text with
  | none => rfl
  | some s => rw [Option.map_some, toWellFormed_eq_self (storable s rfl)]

theorem all_takesText {text : Option JsString}
    (storable : ∀ s, text = some s → isStorable s = true) : text.all takesText = true := by
  cases text with
  | none => rfl
  | some s => exact takesText_of_isStorable (storable s rfl)

private theorem map_toWellFormed_list {texts : List JsString}
    (storable : ∀ s ∈ texts, isStorable s = true) : texts.map toWellFormed = texts := by
  rw [List.map_congr_left fun s inside => toWellFormed_eq_self (storable s inside), List.map_id']

private theorem takesRecord_of_fits {entries : List (JsString × JsString)}
    (fits : ∀ entry ∈ entries, EntryFits storableText entry) : takesRecord entries = true := by
  rw [takesRecord, List.all_eq_true]
  intro entry inside
  rw [takesJsonText_of_isStorable (fits entry inside).2.1,
    takesJsonText_of_isStorable (fits entry inside).2.2]
  rfl

section Parts

variable {option : BankOption} {spec : BankCodingSpec} {testCase : BankTestCase}
  {key : BankAnswerKey}

private theorem storedOption_eq_self (fits : OptionFits storableText option)
    (exact : ∀ delta ∈ option.scoreDelta, IsHundredths delta) :
    storedOption (toOptionContent option) = toOptionContent option := by
  have delta : option.scoreDelta.map toFixed2 = option.scoreDelta := by
    cases found : option.scoreDelta with
    | none => rfl
    | some delta => rw [Option.map_some, toFixed2_eq_self (exact delta found)]
  simp only [storedOption, toOptionContent, delta, toWellFormed_eq_self fits.bodyMd.2.2,
    map_toWellFormed fun s found => (fits.rationaleMd s found).2.2]

private theorem takesOption_of_fits (fits : OptionFits storableText option) :
    takesOption (toOptionContent option) = true := by
  rw [takesOption, Bool.and_eq_true]
  exact ⟨takesText_of_isStorable fits.bodyMd.2.2,
    all_takesText fun s found => (fits.rationaleMd s found).2.2⟩

private theorem storedSpec_eq_self (fits : SpecFits storableText spec) :
    storedSpec (toSpecContent spec) = toSpecContent spec := by
  simp only [storedSpec, toSpecContent, map_toWellFormed fits.checkerCode,
    map_toWellFormed fits.fixtureSql,
    map_toWellFormed_list fun s inside => (fits.languages s inside).2.2]

private theorem takesSpec_of_fits (fits : SpecFits storableText spec) :
    takesSpec (toSpecContent spec) = true := by
  simp only [takesSpec, Bool.and_eq_true]
  refine ⟨⟨⟨⟨?_, takesRecord_of_fits fits.starterCode⟩, takesRecord_of_fits fits.solutionCode⟩,
    all_takesText fits.checkerCode⟩, all_takesText fits.fixtureSql⟩
  rw [takesTexts, List.all_eq_true]
  intro s inside
  exact takesText_of_isStorable (fits.languages s inside).2.2

private theorem storedCase_eq_self (fits : CaseFits storableText testCase)
    (exact : IsHundredths testCase.weight) :
    storedCase (toCaseContent testCase) = toCaseContent testCase := by
  have args : (testCase.args.map fun args => args.map toWellFormed) = testCase.args := by
    cases found : testCase.args with
    | none => rfl
    | some args => rw [Option.map_some, map_toWellFormed_list (fits.args args found)]
  simp only [storedCase, toCaseContent, args, toFixed2_eq_self exact,
    toWellFormed_eq_self fits.stdin, map_toWellFormed fits.expectedStdout,
    map_toWellFormed fun s found => (fits.label s found).2.2,
    map_toWellFormed fun s found => (fits.assertionCode s found).2.2]

private theorem takesCase_of_fits (fits : CaseFits storableText testCase) :
    takesCase (toCaseContent testCase) = true := by
  simp only [takesCase, Bool.and_eq_true]
  refine ⟨⟨⟨⟨all_takesText fun s found => (fits.label s found).2.2,
    takesText_of_isStorable fits.stdin⟩, all_takesText fits.expectedStdout⟩, ?_⟩,
    all_takesText fun s found => (fits.assertionCode s found).2.2⟩
  cases found : testCase.args with
  | none => simp [toCaseContent, found]
  | some args =>
      simp only [toCaseContent, found, Option.all_some, takesTexts, List.all_eq_true]
      intro s inside
      exact takesText_of_isStorable (fits.args args found s inside)

private theorem storedKey_eq_self (fits : KeyFits storableText key)
    (exact : IsHundredths key.score) : storedKey (toKeyContent key) = toKeyContent key := by
  simp only [storedKey, toKeyContent, toFixed2_eq_self exact, toWellFormed_eq_self fits.pattern.2.2]

end Parts

section Version

variable {version : BankVersion}

theorem takesContent_of_fits (fits : VersionFits storableText version) :
    takesContent (toVersionContent version) = true := by
  have spec : (toVersionContent version).codingSpec.all takesSpec = true := by
    cases found : version.codingSpec with
    | none => simp [toVersionContent, found]
    | some spec =>
        simp only [toVersionContent, found, Option.map_some, Option.all_some]
        exact takesSpec_of_fits (fits.codingSpec spec found)
  simp only [takesContent, takesVersion, takesChildren, Bool.and_eq_true]
  refine ⟨⟨⟨takesText_of_isStorable fits.locale.2.2, takesText_of_isStorable fits.promptMd.2.2⟩,
    all_takesText fun s found => (fits.explanationMd s found).2.2⟩, ⟨⟨?_, spec⟩, ?_⟩, ?_⟩
  · rw [toVersionContent, List.all_map, List.all_eq_true]
    intro option inside
    exact takesOption_of_fits (fits.options option inside)
  · rw [toVersionContent, List.all_map, List.all_eq_true]
    intro testCase inside
    exact takesCase_of_fits (fits.testCases testCase inside)
  · rw [toVersionContent, List.all_map, List.all_eq_true]
    intro key inside
    exact takesText_of_isStorable (fits.answerKeys key inside).pattern.2.2

theorem storedContent_eq_self (fits : VersionFits storableText version)
    (exact : ExactVersion version) :
    storedContent (toVersionContent version) = toVersionContent version := by
  have options : (version.options.map toOptionContent).map storedOption =
      version.options.map toOptionContent := by
    rw [List.map_map]
    apply List.map_congr_left
    intro option inside
    exact storedOption_eq_self (fits.options option inside) (exact.options option inside)
  have spec : (version.codingSpec.map toSpecContent).map storedSpec =
      version.codingSpec.map toSpecContent := by
    cases found : version.codingSpec with
    | none => rfl
    | some spec => exact congrArg some (storedSpec_eq_self (fits.codingSpec spec found))
  have cases : (version.testCases.map toCaseContent).map storedCase =
      version.testCases.map toCaseContent := by
    rw [List.map_map]
    apply List.map_congr_left
    intro testCase inside
    exact storedCase_eq_self (fits.testCases testCase inside) (exact.testCases testCase inside)
  have keys : (version.answerKeys.map toKeyContent).map storedKey =
      version.answerKeys.map toKeyContent := by
    rw [List.map_map]
    apply List.map_congr_left
    intro key inside
    exact storedKey_eq_self (fits.answerKeys key inside) (exact.answerKeys key inside)
  simp only [storedContent, byOrdinal_numbered, toVersionContent, options, spec, cases, keys,
    toFixed2_eq_self exact.maxScore, toFixed2_eq_self exact.negativeScore,
    toWellFormed_eq_self fits.locale.2.2, toWellFormed_eq_self fits.promptMd.2.2,
    map_toWellFormed fun s found => (fits.explanationMd s found).2.2]

end Version

end Assaybank.Interchange
