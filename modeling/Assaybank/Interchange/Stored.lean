import Assaybank.Interchange.ItemParts
import Assaybank.Interchange.Records
import Assaybank.Runtime.Lines

/-!
Owns what the database does to content that fits the schemas: what is stored fits them still, in
text a question bank can store, and the kind rule reads it as it read what was sent.
-/

namespace Assaybank.Interchange

open Assaybank.Runtime Assaybank.Library Assaybank.Contracts Assaybank.Domain Assaybank.Db

/-! ### Text -/

section Text

theorem length_toWellFormed (s : JsString) : (toWellFormed s).length = s.length := by
  fun_induction toWellFormed s <;> simp_all

private theorem isStorable_cons {c : CodeUnit} {s : JsString} (nonzero : c ≠ 0)
    (high : isHighSurrogate c = false) (low : isLowSurrogate c = false) :
    isStorable (c :: s) = isStorable s := by
  cases s with
  | nil => simp [isStorable, isCharacterText, nonzero, high, low]
  | cons d rest => simp [isStorable, isCharacterText, nonzero, high, low]

private theorem isStorable_pair {c d : CodeUnit} {s : JsString} (high : isHighSurrogate c = true)
    (low : isLowSurrogate d = true) : isStorable (c :: d :: s) = isStorable s := by
  simp [isStorable, isCharacterText, high, low]

private theorem isStorable_replacement (s : JsString) :
    isStorable (REPLACEMENT :: s) = isStorable s :=
  isStorable_cons (by decide) (by decide) (by decide)

private theorem takesText_cons {c : CodeUnit} {s : JsString} :
    takesText (c :: s) = true ↔ c ≠ 0 ∧ takesText s = true := by
  have absent (s : JsString) : takesText s = true ↔ 0 ∉ s := by simp [takesText]
  rw [absent, absent, List.mem_cons, not_or]
  exact and_congr_left fun _ => ne_comm

/-- Text a column takes is read back as text a bank stores. -/
theorem isStorable_toWellFormed {s : JsString} (taken : takesText s = true) :
    isStorable (toWellFormed s) = true := by
  fun_induction toWellFormed s with
  | case1 => rfl
  | case2 c surrogate => decide
  | case3 c plain =>
      simp only [Bool.or_eq_true, not_or, Bool.not_eq_true] at plain
      rw [isStorable_cons (takesText_cons.mp taken).1 plain.1 plain.2]
      rfl
  | case4 c d rest high low inductionHypothesis =>
      rw [isStorable_pair high low]
      exact inductionHypothesis (takesText_cons.mp (takesText_cons.mp taken).2).2
  | case5 c d rest high low inductionHypothesis =>
      rw [isStorable_replacement]
      exact inductionHypothesis (takesText_cons.mp taken).2
  | case6 c d rest high low inductionHypothesis =>
      rw [isStorable_replacement]
      exact inductionHypothesis (takesText_cons.mp taken).2
  | case7 c d rest high low inductionHypothesis =>
      rw [isStorable_cons (takesText_cons.mp taken).1 (by simpa using high) (by simpa using low)]
      exact inductionHypothesis (takesText_cons.mp taken).2

/-- Text a `jsonb` column takes is text a bank stores. -/
theorem isStorable_of_takesJsonText {s : JsString} (taken : takesJsonText s = true) :
    isStorable s = true := by
  simp only [takesJsonText, Bool.and_eq_true, beq_iff_eq] at taken
  rw [← taken.2]
  exact isStorable_toWellFormed taken.1

private theorem not_space_of_surrogate {c : CodeUnit}
    (surrogate : isHighSurrogate c = true ∨ isLowSurrogate c = true) : isSpace c = false := by
  simp only [isHighSurrogate, isLowSurrogate, isSpace, Bool.and_eq_true, decide_eq_true_eq,
    Bool.or_eq_false_iff, Bool.and_eq_false_iff, decide_eq_false_iff_not, beq_eq_false_iff_ne,
    UInt16.le_iff_toNat_le, ne_eq, ← UInt16.toNat_inj] at surrogate ⊢
  simp only [UInt16.reduceToNat] at surrogate ⊢
  omega

private theorem all_space_toWellFormed (s : JsString) :
    (toWellFormed s).all isSpace = s.all isSpace := by
  have replacement : isSpace REPLACEMENT = false := by decide
  fun_induction toWellFormed s with
  | case1 => rfl
  | case2 c surrogate =>
      simp [replacement, not_space_of_surrogate (by simpa using surrogate)]
  | case3 c plain => rfl
  | case4 c d rest high low inductionHypothesis =>
      simp [not_space_of_surrogate (.inl high)]
  | case5 c d rest high low inductionHypothesis =>
      simp [replacement, not_space_of_surrogate (.inl high)]
  | case6 c d rest high low inductionHypothesis =>
      simp [replacement, not_space_of_surrogate (.inr low)]
  | case7 c d rest high low inductionHypothesis =>
      rw [List.all_cons, inductionHypothesis]
      rfl

private theorem trim_toWellFormed {s : JsString} : trim (toWellFormed s) = [] ↔ trim s = [] := by
  rw [trim_eq_nil, trim_eq_nil, all_space_toWellFormed]

/-- Blank text is stored as blank text, and no other text is. -/
theorem isBlankText_toWellFormed (text : Option JsString) :
    isBlankText (text.map toWellFormed) = isBlankText text := by
  cases text with
  | none => rfl
  | some s =>
      unfold isBlankText
      rw [Bool.eq_iff_iff, beq_iff_eq, beq_iff_eq]
      exact trim_toWellFormed

end Text

/-! ### Scores -/

section Scores

theorem toRat_toFixed2 (d : Decimal) : (toFixed2 d).toRat * 100 = round (d.toRat * 100) := by
  unfold toFixed2
  rw [Decimal.toRat_ofScaled]
  norm_num
  ring

section TwoDecimals

variable {d : Decimal}

private theorem isDouble_tenThousand : Binary64.IsDouble (10 ^ 4) := by
  exact_mod_cast Binary64.isDouble_natCast (n := 10 ^ 4) (by norm_num)

/-- A hundred times the number, as the test of the decimals takes it. -/
theorem scaled_near (bounded : |d.toRat| ≤ 10 ^ 4) :
    |Binary64.nearest (Binary64.nearest d.toRat * 100) - Binary64.nearest d.toRat * 100| ≤
      1 / 10 ^ 10 := by
  have small := Binary64.abs_nearest_le isDouble_tenThousand bounded
  have product : |Binary64.nearest d.toRat * 100| < 2 ^ (-33 + 53 : ℤ) := by
    rw [abs_mul, abs_of_pos (by norm_num : (0 : ℚ) < 100)]
    norm_num at small ⊢
    linarith
  have digit := Binary64.unit_le (by norm_num) product
  have near := Binary64.nearest_near (Binary64.nearest d.toRat * 100)
  norm_num at digit ⊢
  linarith

theorem tolerance_bounds : 9 / 10 ^ 7 < DECIMALS_TOLERANCE ∧ DECIMALS_TOLERANCE < 101 / 10 ^ 8 := by
  have small : |(1 / 10 ^ 6 : ℚ)| < 2 ^ (-52 + 53 : ℤ) := by norm_num
  have digit := Binary64.unit_le (by norm_num) small
  obtain ⟨low, high⟩ := abs_le.mp (Binary64.nearest_near (1 / 10 ^ 6))
  unfold DECIMALS_TOLERANCE
  norm_num at digit low high ⊢
  constructor
  · linarith
  · linarith

/-- The test of the decimals asks how far the product by a hundred lies from a whole number. -/
theorem hasAtMostTwoDecimals_iff (bounded : |d.toRat| ≤ 10 ^ 4) :
    hasAtMostTwoDecimals d = true ↔ ∃ n : ℤ,
      |Binary64.nearest (Binary64.nearest d.toRat * 100) - n| < DECIMALS_TOLERANCE := by
  have small := Binary64.abs_nearest_le isDouble_tenThousand bounded
  have finite : JsDouble.ofRat (Binary64.nearest d.toRat * 100) =
      .finite (Binary64.nearest (Binary64.nearest d.toRat * 100)) := by
    have product : |Binary64.nearest (Binary64.nearest d.toRat * 100)| ≤ 2 ^ 20 := by
      refine Binary64.abs_nearest_le (Binary64.isDouble_zpow (by norm_num : (-1074 : ℤ) ≤ 20)) ?_
      rw [abs_mul, abs_of_pos (by norm_num : (0 : ℚ) < 100)]
      norm_num at small ⊢
      linarith
    have less : |Binary64.nearest (Binary64.nearest d.toRat * 100)| < Binary64.overflow :=
      product.trans_lt (pow_lt_pow_right₀ (by norm_num) (by norm_num))
    exact if_neg (not_le.mpr less)
  delta hasAtMostTwoDecimals
  rw [finite]
  dsimp only
  generalize scaled_eq : Binary64.nearest (Binary64.nearest d.toRat * 100) = scaled
  have double : Binary64.IsDouble scaled := scaled_eq ▸ Binary64.isDouble_nearest _
  rw [Binary64.nearest_eq_self (Binary64.isDouble_sub_intCast double (abs_sub_round scaled)),
    decide_eq_true_iff]
  constructor
  · intro near
    exact ⟨round scaled, near⟩
  · rintro ⟨n, near⟩
    exact (round_le scaled n).trans_lt near

/-- A number of hundredths passes the test of the decimals. -/
theorem hasAtMostTwoDecimals_hundredths {n : ℤ} (whole : d.toRat * 100 = n)
    (bounded : |d.toRat| ≤ 10 ^ 4) : hasAtMostTwoDecimals d = true := by
  refine (hasAtMostTwoDecimals_iff bounded).mpr ⟨n, ?_⟩
  have hundredth : d.toRat = n / 100 := by linarith
  have small := Binary64.abs_nearest_le isDouble_tenThousand bounded
  have scaled := scaled_near bounded
  rw [hundredth] at small scaled ⊢
  have near := nearest_hundredth_near small
  calc
    |Binary64.nearest (Binary64.nearest (n / 100) * 100) - n| =
        |(Binary64.nearest (Binary64.nearest (n / 100) * 100) -
          Binary64.nearest (n / 100) * 100) + (Binary64.nearest (n / 100) * 100 - n)| := by
      rw [sub_add_sub_cancel]
    _ ≤ 1 / 10 ^ 10 + 1 / 10 ^ 9 := (abs_add_le _ _).trans (add_le_add scaled near)
    _ < 9 / 10 ^ 7 := by norm_num
    _ < DECIMALS_TOLERANCE := tolerance_bounds.1

end TwoDecimals

/-- Rounding to hundredths does not cross a hundredth. -/
private theorem le_toFixed2 {least d : Decimal} {hundredths : Int}
    (whole : least.toRat * 100 = hundredths) (above : least ≤ d) : least ≤ toFixed2 d := by
  have scaled : (hundredths : ℚ) ≤ d.toRat * 100 := by
    rw [← whole]
    exact mul_le_mul_of_nonneg_right above (by norm_num)
  have rounded : hundredths ≤ round (d.toRat * 100) := by
    rw [round_eq, Int.le_floor]
    linarith
  have : (hundredths : ℚ) ≤ (toFixed2 d).toRat * 100 := by
    rw [toRat_toFixed2]
    exact_mod_cast rounded
  rw [Decimal.le_iff_toRat]
  linarith

private theorem toFixed2_le {most d : Decimal} {hundredths : Int}
    (whole : most.toRat * 100 = hundredths) (below : d ≤ most) : toFixed2 d ≤ most := by
  have scaled : d.toRat * 100 ≤ hundredths := by
    rw [← whole]
    exact mul_le_mul_of_nonneg_right below (by norm_num)
  have rounded : round (d.toRat * 100) ≤ hundredths := by
    rw [round_eq, ← Int.lt_add_one_iff, Int.floor_lt]
    push_cast
    linarith
  have : (toFixed2 d).toRat * 100 ≤ hundredths := by
    rw [toRat_toFixed2]
    exact_mod_cast rounded
  rw [Decimal.le_iff_toRat]
  linarith

theorem wholeHundredths {d : Decimal} (least : -2 ≤ d.exponent) :
    ∃ hundredths : Int, d.toRat * 100 = hundredths := by
  obtain ⟨power, exponent⟩ := Int.eq_ofNat_of_zero_le (by omega : 0 ≤ d.exponent + 2)
  refine ⟨d.mantissa * 10 ^ power, ?_⟩
  have scaled : (10 : ℚ) ^ d.exponent * 100 = 10 ^ power := by
    calc
      (10 : ℚ) ^ d.exponent * 100 = 10 ^ d.exponent * 10 ^ (2 : ℤ) := by norm_num
      _ = 10 ^ (d.exponent + 2) := (zpow_add₀ (by norm_num) _ _).symm
      _ = 10 ^ power := by rw [exponent, zpow_natCast]
  unfold Decimal.toRat
  rw [mul_assoc, scaled]
  push_cast
  rfl

theorem accepts_hundredths {least most d : Decimal} :
    (Schema.number [minValue least, maxValue most, twoDecimals]).Accepts d ↔
      least ≤ d ∧ d ≤ most ∧ hasAtMostTwoDecimals d = true := by
  rw [Schema.number, Schema.accepts_scalar]
  simp [minValue, maxValue, twoDecimals]

/-- A number between two bounds in hundredths is between them as it is stored. -/
private theorem stored_hundredths {least most d : Decimal} (above : -2 ≤ least.exponent)
    (below : -2 ≤ most.exponent) (lowest : -(10 ^ 4) ≤ least.toRat) (highest : most.toRat ≤ 10 ^ 4)
    (fits : (Schema.number [minValue least, maxValue most, twoDecimals]).Accepts d) :
    (Schema.number [minValue least, maxValue most, twoDecimals]).Accepts (toFixed2 d) := by
  obtain ⟨low, high, _⟩ := accepts_hundredths.mp fits
  obtain ⟨_, leastWhole⟩ := wholeHundredths above
  obtain ⟨_, mostWhole⟩ := wholeHundredths below
  have storedLow := le_toFixed2 leastWhole low
  have storedHigh := toFixed2_le mostWhole high
  have bounded : |(toFixed2 d).toRat| ≤ 10 ^ 4 :=
    abs_le.mpr ⟨lowest.trans (Decimal.le_iff_toRat.mp storedLow),
      (Decimal.le_iff_toRat.mp storedHigh).trans highest⟩
  exact accepts_hundredths.mpr ⟨storedLow, storedHigh,
    hasAtMostTwoDecimals_hundredths (toRat_toFixed2 d) bounded⟩

theorem scoreFits_iff {least score : Decimal} :
    ScoreFits least score ↔
      least ≤ score ∧ score ≤ MAX_SCORE_VALUE ∧ hasAtMostTwoDecimals score = true :=
  accepts_hundredths

theorem score_bounds : MIN_SCORE_VALUE.toRat = -999999 / 100 ∧
    MAX_SCORE_VALUE.toRat = 999999 / 100 := by
  constructor <;> norm_num [MIN_SCORE_VALUE, MAX_SCORE_VALUE, Decimal.toRat]

theorem ScoreFits.stored {least score : Decimal} (whole : -2 ≤ least.exponent)
    (column : MIN_SCORE_VALUE ≤ least) (fits : ScoreFits least score) :
    ScoreFits least (toFixed2 score) := by
  have lowest := Decimal.le_iff_toRat.mp column
  rw [score_bounds.1] at lowest
  refine stored_hundredths whole (by decide) (by linarith) ?_ fits
  rw [score_bounds.2]
  norm_num

theorem WeightFits.stored {weight : Decimal} (fits : WeightFits weight) :
    WeightFits (toFixed2 weight) :=
  stored_hundredths (by decide +kernel) (by decide) (by decide +kernel) (by decide +kernel) fits

end Scores

/-! ### Content -/

/-- Content every schema of a version accepts, in text that keeps a rule. -/
@[mk_iff]
structure ContentFits (text : TextRule) (content : VersionContent) : Prop where
  locale : TextFits text 2 35 content.locale
  promptMd : TextFits text 1 MAX_PROMPT_LENGTH content.promptMd
  explanationMd : ∀ explanation, content.explanationMd = some explanation →
    TextFits text 0 MAX_EXPLANATION_LENGTH explanation
  difficulty : MIN_DIFFICULTY ≤ content.difficulty ∧ content.difficulty ≤ MAX_DIFFICULTY
  estSeconds : 1 ≤ content.estSeconds ∧ content.estSeconds ≤ 86400
  maxScore : ScoreFits 0 content.maxScore
  negativeScore : ScoreFits 0 content.negativeScore
  options : ∀ option ∈ content.options, OptionFits text (toBankOption option)
  optionCount : content.options.length ≤ MAX_OPTIONS
  codingSpec : ∀ spec, content.codingSpec = some spec → SpecFits text (toBankSpec spec)
  testCases : ∀ testCase ∈ content.testCases, CaseFits text (toBankCase testCase)
  testCaseCount : content.testCases.length ≤ MAX_TEST_CASES
  answerKeys : ∀ key ∈ content.answerKeys, KeyFits text (toBankKey key)
  answerKeyCount : content.answerKeys.length ≤ MAX_ANSWER_KEYS

theorem fits_toBankVersion {text : TextRule} {record : VersionRow} :
    VersionFits text (toBankVersion record) ↔ ContentFits text record.content := by
  rw [versionFits_iff, contentFits_iff]
  simp only [toBankVersion, List.forall_mem_map, List.length_map, Option.map_eq_some_iff,
    forall_exists_index, and_imp, forall_apply_eq_imp_iff₂]

section Content

theorem TextFits.stored {least most : Nat} {s : JsString}
    (fits : TextFits .any least most s) (taken : takesText s = true) :
    TextFits storableText least most (toWellFormed s) := by
  rw [TextFits, length_toWellFormed]
  exact ⟨fits.1, fits.2.1, isStorable_toWellFormed taken⟩

/-- What holds of a text holds of what is stored of it, in a nullable column. -/
theorem stored_of_all {text : Option JsString} {before after : JsString → Prop}
    (step : ∀ s, before s → takesText s = true → after (toWellFormed s))
    (fits : ∀ s, text = some s → before s) (taken : text.all takesText = true) :
    ∀ s, text.map toWellFormed = some s → after s := by
  intro s stored
  obtain ⟨origin, rfl, rfl⟩ := Option.map_eq_some_iff.mp stored
  exact step origin (fits origin rfl) (by simpa using taken)

private theorem EntryFits.stored {entries : List (JsString × JsString)}
    (fits : ∀ entry ∈ entries, EntryFits .any entry) (taken : takesRecord entries = true) :
    ∀ entry ∈ entries, EntryFits storableText entry := by
  intro entry inside
  simp only [takesRecord, List.all_eq_true, Bool.and_eq_true] at taken
  exact ⟨(fits entry inside).1, isStorable_of_takesJsonText (taken entry inside).1,
    isStorable_of_takesJsonText (taken entry inside).2⟩

private theorem OptionFits.stored {option : McqOptionContent}
    (fits : OptionFits .any (toBankOption option)) (taken : takesOption option = true) :
    OptionFits storableText (toBankOption (storedOption option)) := by
  simp only [takesOption, Bool.and_eq_true] at taken
  refine ⟨fits.bodyMd.stored taken.1, ?_, ?_⟩
  · intro delta stored
    obtain ⟨origin, found, rfl⟩ := Option.map_eq_some_iff.mp stored
    exact (fits.scoreDelta origin found).stored (by decide) (by decide +kernel)
  · exact stored_of_all (fun s => TextFits.stored) fits.rationaleMd taken.2

private theorem SpecFits.stored {spec : CodingSpecContent}
    (fits : SpecFits .any (toBankSpec spec)) (taken : takesSpec spec = true) :
    SpecFits storableText (toBankSpec (storedSpec spec)) := by
  simp only [takesSpec, takesTexts, Bool.and_eq_true, List.all_eq_true] at taken
  obtain ⟨⟨⟨⟨languages, starter⟩, solution⟩, checker⟩, fixture⟩ := taken
  refine ⟨?_, ?_, EntryFits.stored fits.starterCode starter,
    EntryFits.stored fits.solutionCode solution, fits.timeLimitMs, fits.memoryLimitKb, ?_, ?_⟩
  · intro language stored
    obtain ⟨origin, inside, rfl⟩ := List.mem_map.mp stored
    exact (fits.languages origin inside).stored (languages origin inside)
  · simpa [toBankSpec, storedSpec] using fits.languageCount
  · exact stored_of_all (fun s _ => isStorable_toWellFormed) fits.checkerCode checker
  · exact stored_of_all (fun s _ => isStorable_toWellFormed) fits.fixtureSql fixture

private theorem CaseFits.stored {testCase : TestCaseContent}
    (fits : CaseFits .any (toBankCase testCase)) (taken : takesCase testCase = true) :
    CaseFits storableText (toBankCase (storedCase testCase)) := by
  simp only [takesCase, Bool.and_eq_true] at taken
  obtain ⟨⟨⟨⟨label, stdin⟩, expected⟩, args⟩, assertion⟩ := taken
  refine ⟨stored_of_all (fun s => TextFits.stored) fits.label label, isStorable_toWellFormed stdin,
    stored_of_all (fun s _ => isStorable_toWellFormed) fits.expectedStdout expected, ?_,
    stored_of_all (fun s => TextFits.stored) fits.assertionCode assertion,
    fits.weight.stored (by decide) (by decide +kernel)⟩
  intro stored found arg inside
  obtain ⟨origin, here, rfl⟩ := Option.map_eq_some_iff.mp found
  obtain ⟨text, within, rfl⟩ := List.mem_map.mp inside
  rw [here] at args
  exact isStorable_toWellFormed (List.all_eq_true.mp args text within)

private theorem KeyFits.stored {key : AnswerKeyContent}
    (fits : KeyFits .any (toBankKey key)) (taken : takesKey key = true) :
    KeyFits storableText (toBankKey (storedKey key)) :=
  ⟨fits.pattern.stored taken, fits.tolerance, fits.score.stored (by decide) (by decide +kernel)⟩

/-- Content a table takes and the schemas accept is read back as content they accept. -/
theorem ContentFits.stored {content : VersionContent} (fits : ContentFits .any content)
    (taken : takesContent content = true) :
    ContentFits storableText (storedContent content) := by
  simp only [takesContent, takesVersion, takesChildren, Bool.and_eq_true, List.all_eq_true] at taken
  obtain ⟨⟨⟨locale, prompt⟩, explanation⟩, ⟨⟨options, spec⟩, cases⟩, keys⟩ := taken
  simp only [storedContent, byOrdinal_numbered]
  constructor
  · exact fits.locale.stored locale
  · exact fits.promptMd.stored prompt
  · exact stored_of_all (fun s => TextFits.stored) fits.explanationMd explanation
  · exact fits.difficulty
  · exact fits.estSeconds
  · exact fits.maxScore.stored (by decide +kernel) (by decide +kernel)
  · exact fits.negativeScore.stored (by decide +kernel) (by decide +kernel)
  · intro option stored
    obtain ⟨origin, inside, rfl⟩ := List.mem_map.mp stored
    exact (fits.options origin inside).stored (options origin inside)
  · simpa using fits.optionCount
  · intro stored found
    obtain ⟨origin, here, rfl⟩ := Option.map_eq_some_iff.mp found
    rw [here] at spec
    exact (fits.codingSpec origin here).stored spec
  · intro testCase stored
    obtain ⟨origin, inside, rfl⟩ := List.mem_map.mp stored
    exact (fits.testCases origin inside).stored (cases origin inside)
  · simpa using fits.testCaseCount
  · intro key stored
    obtain ⟨origin, inside, rfl⟩ := List.mem_map.mp stored
    exact (fits.answerKeys origin inside).stored (keys origin inside)
  · simpa using fits.answerKeyCount

/-- Without its rule on text. -/
theorem ContentFits.any {text : TextRule} {content : VersionContent}
    (fits : ContentFits text content) : ContentFits .any content := by
  let record : VersionRow := ⟨[], 1, content, none, 0⟩
  have whole : Fits text BankVersionSchema (toBankVersion record) :=
    fits_version.mpr ⟨⟨le_refl _, by simp [record, toBankVersion, MAX_SAFE_INTEGER]⟩,
      fits_toBankVersion.mpr fits⟩
  exact fits_toBankVersion.mp (fits_version.mp (fits_any.mpr whole.1)).2

/-- The kind rule reads stored content as it read what was sent. -/
theorem shapeOfContent_storedContent (content : VersionContent) :
    shapeOfContent (storedContent content) = shapeOfContent content := by
  have assertions : (fun c => isBlankText (storedCase c).assertionCode) =
      fun c => isBlankText c.assertionCode := by
    funext c
    exact isBlankText_toWellFormed c.assertionCode
  have fixture : (content.codingSpec.map storedSpec).bind CodingSpecContent.fixtureSql =
      (content.codingSpec.bind CodingSpecContent.fixtureSql).map toWellFormed := by
    cases content.codingSpec <;> rfl
  rw [KindContentShape.mk.injEq]
  refine ⟨?_, ?_, ?_, ?_, ?_, ?_, ?_, ?_, ?_⟩
  all_goals simp only [shapeOfContent, storedContent, byOrdinal_numbered, List.filter_map, List.length_map,
    Option.isSome_map, Option.map_map, fixture, isBlankText_toWellFormed, Function.comp_def,
    assertions]
  all_goals rfl

end Content

/-! ### The kind rule on what is exported -/

/-- A coding or sql specification whose fixture is white space and nothing else. -/
def HasBlankFixture (content : VersionContent) : Prop :=
  (content.codingSpec.bind CodingSpecContent.fixtureSql).getD [] ≠ [] ∧
    isBlankText (content.codingSpec.bind CodingSpecContent.fixtureSql) = true

instance (content : VersionContent) : Decidable (HasBlankFixture content) :=
  inferInstanceAs (Decidable (_ ∧ _))

theorem blankFixture_iff {record : VersionRow} :
    BlankFixture (toBankVersion record) ↔ HasBlankFixture record.content := by
  have fixture : fixtureOf (toBankVersion record) =
      (record.content.codingSpec.bind CodingSpecContent.fixtureSql).getD [] := by
    unfold fixtureOf toBankVersion
    cases record.content.codingSpec <;> rfl
  unfold BlankFixture HasBlankFixture isBlankText
  rw [fixture, beq_iff_eq]

/-- A fixture is read by the rule for coding and by the rule for sql. -/
private theorem validate_of_fixture {kind : QuestionKind} {shape : KindContentShape}
    {stage : KindContentStage} (other : kind ≠ .coding)
    (valid : validateKindContent kind shape stage = []) :
    validateKindContent kind { shape with hasFixtureSql := true } stage = [] := by
  unfold validateKindContent at valid ⊢
  rw [List.append_eq_nil_iff] at valid ⊢
  refine ⟨?_, ?_⟩
  · simpa [wrongContent, wrong, other] using valid.1
  · cases kind with
    | sql => simp_all [missingContent, missingCode, missing]
    | coding => exact absurd rfl other
    | _ => exact valid.2

private theorem shape_of_blankFixture {record : VersionRow}
    (blank : HasBlankFixture record.content) :
    shapeOfBankVersion (toBankVersion record) =
      { shapeOfContent record.content with hasFixtureSql := true } := by
  have filled : (shapeOfBankVersion (toBankVersion record)).hasFixtureSql = true := by
    have present := (blankFixture_iff.mpr blank).1
    show (fixtureOf (toBankVersion record) != []) = true
    simpa using present
  rw [shape_eq_but_fixture, filled, toVersionContent_toBankVersion]

/-- What the API admits of stored content the importer admits of its export, but for a coding
question with a blank fixture. -/
theorem exported_valid_iff {kind : QuestionKind} {stage : KindContentStage} {record : VersionRow}
    (valid : validateKindContent kind (shapeOfContent record.content) stage = []) :
    validateKindContent kind (shapeOfBankVersion (toBankVersion record)) stage = [] ↔
      ¬ (kind = .coding ∧ HasBlankFixture record.content) := by
  by_cases blank : HasBlankFixture record.content
  · rw [shape_of_blankFixture blank]
    by_cases coding : kind = .coding
    · subst coding
      simp [blank, validateKindContent, wrongContent, wrong]
    · exact iff_of_true (validate_of_fixture coding valid) fun both => coding both.1
  · have same := (shape_eq_iff (toBankVersion record)).mpr (fun found => blank (blankFixture_iff.mp found))
    rw [same, toVersionContent_toBankVersion]
    exact iff_of_true valid fun both => blank both.2

end Assaybank.Interchange
