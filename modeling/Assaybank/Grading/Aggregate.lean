import Assaybank.Grading.Score
import Mathlib.Algebra.Order.BigOperators.Group.List
import Mathlib.Tactic.FieldSimp

/-!
Owns the score of a coding submission and the weighted mean of sections
(`packages/grading/src/aggregate.ts`), in exact arithmetic.

Contract: over weights that are not negative a submission is given the share of the weight its
passing cases carry, rounded to six decimals (`scoreSubmission_eq`). So the score is a proportion
that no pass lowers and that neither the order of the cases nor the unit of the weights changes; it
is full marks, or nothing, exactly when what failed, or passed, weighs too little for six decimals
to show (`scoreSubmission_laws`).
-/

namespace Assaybank.Grading

open Assaybank.Runtime Assaybank.Library

/-- One test case's verdict. -/
structure CaseResult where
  passed : Bool
deriving DecidableEq

/-- One section's contribution to an attempt total. -/
structure WeightedSection where
  score : JsDouble
  weight : JsDouble

/-- A `RangeError` of the aggregation, with what its text is made of. -/
inductive AggregateError where
  /-- `results and weights must be the same length, received ${results} and ${weights}.` -/
  | differentLengths (results weights : Nat)
  /-- `weights[${index}] is missing.` -/
  | missingWeight (index : Nat)
  /-- `sections[${index}].score must be finite, received ${value}.` -/
  | scoreNotFinite (index : Nat) (value : JsDouble)
  | outOfRange (error : RangeError)
deriving DecidableEq

/-- `assertFiniteAtLeast`, whose error ends the aggregation. -/
def assertWeight (weight : JsDouble) (label : JsString) : Except AggregateError ℚ :=
  (assertFiniteAtLeast weight label 0).mapError .outOfRange

/-- The sums of the loop. -/
structure WeightSums where
  totalWeight : ℚ
  earnedWeight : ℚ
deriving DecidableEq

/-- The body of the loop over the results. -/
def addCase (weights : List JsDouble) (sums : WeightSums) (entry : CaseResult × Nat) :
    Except AggregateError WeightSums :=
  match weights[entry.2]? with
  | none => .error (.missingWeight entry.2)
  | some weight => do
      let weight ← assertWeight weight (js "weights[" ++ natText entry.2 ++ js "]")
      return {
        totalWeight := sums.totalWeight + weight
        earnedWeight := if entry.1.passed then sums.earnedWeight + weight else sums.earnedWeight }

def scoreSubmission (results : List CaseResult) (weights : List JsDouble) :
    Except AggregateError ℚ :=
  if results.length ≠ weights.length then
    .error (.differentLengths results.length weights.length)
  else do
    let sums ← results.zipIdx.foldlM (addCase weights) ⟨0, 0⟩
    return if sums.totalWeight = 0 then 0 else roundScore (sums.earnedWeight / sums.totalWeight)

/-- The body of the loop over the sections. `earnedWeight` holds the weighted sum. -/
def addSection (sums : WeightSums) (entry : WeightedSection × Nat) :
    Except AggregateError WeightSums :=
  match entry.1.score with
  | .finite score => do
      let weight ← assertWeight entry.1.weight (js "sections[" ++ natText entry.2 ++ js "].weight")
      return {
        totalWeight := sums.totalWeight + weight
        earnedWeight := sums.earnedWeight + score * weight }
  | value => .error (.scoreNotFinite entry.2 value)

def weightedTotal (sections : List WeightedSection) : Except AggregateError ℚ := do
  let sums ← sections.zipIdx.foldlM addSection ⟨0, 0⟩
  return if sums.totalWeight = 0 then 0 else roundScore (sums.earnedWeight / sums.totalWeight)

/-! ### The share of the weight -/

/-- The weight of all cases. -/
def totalWeight (cases : List (CaseResult × ℚ)) : ℚ := (cases.map Prod.snd).sum

/-- The weight of the cases that passed. -/
def passingWeight (cases : List (CaseResult × ℚ)) : ℚ :=
  (cases.map fun case => if case.1.passed then case.2 else 0).sum

/-- The weight of the cases that failed. -/
def failingWeight (cases : List (CaseResult × ℚ)) : ℚ :=
  (cases.map fun case => if case.1.passed then 0 else case.2).sum

/-- The share of the weight the passing cases carry, rounded, where there is weight at all. -/
def share (cases : List (CaseResult × ℚ)) : ℚ :=
  if totalWeight cases = 0 then 0 else roundScore (passingWeight cases / totalWeight cases)

theorem assertWeight_finite {weight : ℚ} (nonnegative : 0 ≤ weight) (label : JsString) :
    assertWeight (.finite weight) label = .ok weight := by
  rw [assertWeight, assertFiniteAtLeast_eq_ok.mpr ⟨rfl, nonnegative⟩]
  rfl

/-- By induction on the results: the weights before them have been taken. -/
theorem foldlM_addCase {results : List CaseResult} {weights : List ℚ} (before : List JsDouble)
    (same : results.length = weights.length) (nonnegative : ∀ weight ∈ weights, 0 ≤ weight)
    (sums : WeightSums) :
    (results.zipIdx before.length).foldlM (addCase (before ++ weights.map .finite)) sums =
      .ok ⟨sums.totalWeight + totalWeight (results.zip weights),
        sums.earnedWeight + passingWeight (results.zip weights)⟩ := by
  induction results generalizing weights before sums with
  | nil => simp [totalWeight, passingWeight]; rfl
  | cons result rest inductionHypothesis =>
      cases weights with
      | nil => cases same
      | cons weight later =>
          have here : (before ++ (weight :: later).map JsDouble.finite)[before.length]? =
              some (.finite weight) := by simp
          have step : addCase (before ++ (weight :: later).map .finite) sums
              (result, before.length) = .ok
                ⟨sums.totalWeight + weight,
                  if result.passed then sums.earnedWeight + weight else sums.earnedWeight⟩ := by
            rw [addCase, here]
            show (assertWeight (.finite weight) _ >>= _) = _
            rw [assertWeight_finite (nonnegative weight List.mem_cons_self)]
            rfl
          have shifted : before ++ (weight :: later).map JsDouble.finite =
              (before ++ [.finite weight]) ++ later.map .finite := by simp
          have next := inductionHypothesis (before ++ [.finite weight]) (Nat.succ.inj same)
            (fun other inside => nonnegative other (List.mem_cons_of_mem _ inside))
          rw [List.length_append, List.length_singleton, ← shifted] at next
          rw [List.zipIdx_cons, List.foldlM_cons, step]
          refine (next _).trans ?_
          congr 2
          · simp [totalWeight, add_assoc]
          · by_cases passed : result.passed
            · simp [passingWeight, passed, add_assoc]
            · simp [passingWeight, passed]

/-- A submission scores the rounded share of the weight its passing cases carry. -/
theorem scoreSubmission_eq {results : List CaseResult} {weights : List ℚ}
    (same : results.length = weights.length) (nonnegative : ∀ weight ∈ weights, 0 ≤ weight) :
    scoreSubmission results (weights.map .finite) = .ok (share (results.zip weights)) := by
  have folded := foldlM_addCase [] same nonnegative ⟨0, 0⟩
  rw [List.nil_append, List.length_nil, zero_add, zero_add] at folded
  have fits : ¬ results.length ≠ (weights.map JsDouble.finite).length := by
    rw [List.length_map]
    exact not_not_intro same
  rw [scoreSubmission, if_neg fits, folded]
  rfl

/-! ### What rounding to six decimals does to a proportion -/

theorem roundScore_proportion {value : ℚ} (low : 0 ≤ value) (high : value ≤ 1) :
    roundScore value = round (value * 10 ^ SCALE) / 10 ^ SCALE := by
  have small : ¬ 10 ^ 21 ≤ |value| := by
    rw [abs_of_nonneg low]
    intro huge
    linarith
  rw [roundScore, toFixed, if_neg small, if_neg (not_lt.mpr low)]

theorem roundScore_mono {first second : ℚ} (low : 0 ≤ first) (less : first ≤ second)
    (high : second ≤ 1) : roundScore first ≤ roundScore second := by
  rw [roundScore_proportion low (less.trans high), roundScore_proportion (low.trans less) high]
  have scaled : first * 10 ^ SCALE ≤ second * 10 ^ SCALE :=
    mul_le_mul_of_nonneg_right less (by positivity)
  have rounded : round (first * 10 ^ SCALE) ≤ round (second * 10 ^ SCALE) := by
    rw [round_eq, round_eq]
    exact Int.floor_le_floor (add_le_add_left scaled _)
  exact div_le_div_of_nonneg_right (Int.cast_le.mpr rounded) (by positivity)

/-- A proportion is rounded to nothing when it is less than half of the sixth decimal. -/
theorem roundScore_eq_zero {value : ℚ} (low : 0 ≤ value) (high : value ≤ 1) :
    roundScore value = 0 ↔ value * 2000000 < 1 := by
  have scale : (10 : ℚ) ^ SCALE = 1000000 := by norm_num [SCALE]
  rw [roundScore_proportion low high, scale, div_eq_zero_iff, Int.cast_eq_zero, round_eq,
    Int.floor_eq_iff]
  constructor
  · rintro ((⟨_, above⟩) | impossible)
    · push_cast at above
      linarith
    · norm_num at impossible
  · intro small
    refine .inl ⟨?_, ?_⟩
    · push_cast
      linarith
    · push_cast
      linarith

/-- A proportion is rounded to full marks when it lacks at most half of the sixth decimal. -/
theorem roundScore_eq_one {value : ℚ} (low : 0 ≤ value) (high : value ≤ 1) :
    roundScore value = 1 ↔ (1 - value) * 2000000 ≤ 1 := by
  have scale : (10 : ℚ) ^ SCALE = ((1000000 : Int) : ℚ) := by norm_num [SCALE]
  have positive : (((1000000 : Int) : ℚ)) ≠ 0 := by norm_num
  rw [roundScore_proportion low high, scale, div_eq_one_iff_eq positive, Int.cast_inj, round_eq,
    Int.floor_eq_iff]
  constructor
  · rintro ⟨below, _⟩
    push_cast at below
    linarith
  · intro near
    constructor
    · push_cast
      linarith
    · push_cast
      linarith

/-! ### The weights of the cases -/

section Weights

variable {cases : List (CaseResult × ℚ)}

/-- No case has a weight below zero. -/
def NonnegativeWeights (cases : List (CaseResult × ℚ)) : Prop := ∀ case ∈ cases, 0 ≤ case.2

theorem passing_add_failing (cases : List (CaseResult × ℚ)) :
    passingWeight cases + failingWeight cases = totalWeight cases := by
  induction cases with
  | nil => exact add_zero 0
  | cons case rest inductionHypothesis =>
      unfold passingWeight failingWeight totalWeight at *
      simp only [List.map_cons, List.sum_cons]
      split
      · linarith
      · linarith

theorem passingWeight_nonneg (nonnegative : NonnegativeWeights cases) : 0 ≤ passingWeight cases := by
  apply List.sum_nonneg
  intro weight inside
  obtain ⟨case, member, rfl⟩ := List.mem_map.mp inside
  split
  · exact nonnegative case member
  · exact le_refl 0

theorem failingWeight_nonneg (nonnegative : NonnegativeWeights cases) : 0 ≤ failingWeight cases := by
  apply List.sum_nonneg
  intro weight inside
  obtain ⟨case, member, rfl⟩ := List.mem_map.mp inside
  split
  · exact le_refl 0
  · exact nonnegative case member

theorem le_passingWeight (nonnegative : NonnegativeWeights cases) {case : CaseResult × ℚ}
    (inside : case ∈ cases) (passed : case.1.passed = true) : case.2 ≤ passingWeight cases := by
  apply List.single_le_sum
  · intro weight member
    obtain ⟨other, among, rfl⟩ := List.mem_map.mp member
    split
    · exact nonnegative other among
    · exact le_refl 0
  · exact List.mem_map.mpr ⟨case, inside, if_pos passed⟩

theorem le_failingWeight (nonnegative : NonnegativeWeights cases) {case : CaseResult × ℚ}
    (inside : case ∈ cases) (failed : case.1.passed = false) : case.2 ≤ failingWeight cases := by
  apply List.single_le_sum
  · intro weight member
    obtain ⟨other, among, rfl⟩ := List.mem_map.mp member
    split
    · exact le_refl 0
    · exact nonnegative other among
  · refine List.mem_map.mpr ⟨case, inside, ?_⟩
    rw [failed]
    rfl

/-- Without weight nothing is earned, and with weight the share is a proportion. -/
theorem share_ratio (nonnegative : NonnegativeWeights cases) :
    0 ≤ passingWeight cases / totalWeight cases ∧ passingWeight cases / totalWeight cases ≤ 1 := by
  have passing := passingWeight_nonneg nonnegative
  have failing := failingWeight_nonneg nonnegative
  have total := passing_add_failing cases
  constructor
  · exact div_nonneg passing (by linarith)
  · exact div_le_one_of_le₀ (by linarith) (by linarith)

theorem share_bounds (nonnegative : NonnegativeWeights cases) :
    0 ≤ share cases ∧ share cases ≤ 1 := by
  have ratio := share_ratio nonnegative
  unfold share
  split
  · exact ⟨le_refl 0, zero_le_one⟩
  · exact roundScore_bounds (onGrid_one SCALE) ratio.1 ratio.2

/-- More passing weight among the same weight is no smaller a share. -/
theorem share_mono {other : List (CaseResult × ℚ)} (nonnegative : NonnegativeWeights cases)
    (otherNonnegative : NonnegativeWeights other) (total : totalWeight other = totalWeight cases)
    (more : passingWeight cases ≤ passingWeight other) : share cases ≤ share other := by
  have positive : 0 ≤ totalWeight cases := by
    rw [← passing_add_failing cases]
    exact add_nonneg (passingWeight_nonneg nonnegative) (failingWeight_nonneg nonnegative)
  have ratio := (share_ratio otherNonnegative).2
  rw [total] at ratio
  rw [share, share, total]
  split
  · exact le_refl 0
  · exact roundScore_mono (share_ratio nonnegative).1 (div_le_div_of_nonneg_right more positive) ratio

/-- The share is full marks when what failed is at most one part in two million. -/
theorem share_eq_one (nonnegative : NonnegativeWeights cases) (weighed : 0 < totalWeight cases) :
    share cases = 1 ↔ failingWeight cases * 2000000 ≤ totalWeight cases := by
  have ratio := share_ratio nonnegative
  have lacking : 1 - passingWeight cases / totalWeight cases =
      failingWeight cases / totalWeight cases := by
    rw [eq_div_iff weighed.ne', sub_mul, div_mul_cancel₀ _ weighed.ne', one_mul,
      ← passing_add_failing cases]
    ring
  rw [share, if_neg weighed.ne', roundScore_eq_one ratio.1 ratio.2, lacking, div_mul_eq_mul_div,
    div_le_one weighed]

/-- The share is nothing when what passed is less than one part in two million. -/
theorem share_eq_zero (nonnegative : NonnegativeWeights cases) (weighed : 0 < totalWeight cases) :
    share cases = 0 ↔ passingWeight cases * 2000000 < totalWeight cases := by
  have ratio := share_ratio nonnegative
  rw [share, if_neg weighed.ne', roundScore_eq_zero ratio.1 ratio.2, div_mul_eq_mul_div,
    div_lt_one weighed]

/-- Where no positive weight is lost in the rounding, full marks mean that nothing failed. -/
theorem share_eq_one_iff_passed (nonnegative : NonnegativeWeights cases)
    (weighed : 0 < totalWeight cases)
    (shows : ∀ case ∈ cases, 0 < case.2 → totalWeight cases < case.2 * 2000000) :
    share cases = 1 ↔ ∀ case ∈ cases, 0 < case.2 → case.1.passed = true := by
  rw [share_eq_one nonnegative weighed]
  constructor
  · intro full case inside positive
    by_contra failed
    have carried := le_failingWeight nonnegative inside (Bool.eq_false_of_not_eq_true failed)
    have large := shows case inside positive
    linarith
  · intro allPassed
    have nothing : failingWeight cases = 0 := by
      apply List.sum_eq_zero
      intro weight member
      obtain ⟨case, inside, rfl⟩ := List.mem_map.mp member
      rcases (nonnegative case inside).eq_or_lt with zero | positive
      · rw [← zero, ite_self]
      · exact if_pos (allPassed case inside positive)
    rw [nothing, zero_mul]
    exact weighed.le

/-- Where no positive weight is lost in the rounding, no marks mean that nothing passed. -/
theorem share_eq_zero_iff_failed (nonnegative : NonnegativeWeights cases)
    (weighed : 0 < totalWeight cases)
    (shows : ∀ case ∈ cases, 0 < case.2 → totalWeight cases < case.2 * 2000000) :
    share cases = 0 ↔ ∀ case ∈ cases, 0 < case.2 → case.1.passed = false := by
  rw [share_eq_zero nonnegative weighed]
  constructor
  · intro nothing case inside positive
    by_contra passed
    have carried := le_passingWeight nonnegative inside (Bool.eq_true_of_not_eq_false passed)
    have large := shows case inside positive
    linarith
  · intro noneFailed
    have nothing : passingWeight cases = 0 := by
      apply List.sum_eq_zero
      intro weight member
      obtain ⟨case, inside, rfl⟩ := List.mem_map.mp member
      rcases (nonnegative case inside).eq_or_lt with zero | positive
      · rw [← zero, ite_self]
      · rw [noneFailed case inside positive]
        rfl
    rw [nothing, zero_mul]
    exact weighed

theorem share_perm {other : List (CaseResult × ℚ)} (reordered : cases.Perm other) :
    share cases = share other := by
  have total : totalWeight cases = totalWeight other := (reordered.map _).sum_eq
  have passing : passingWeight cases = passingWeight other := (reordered.map _).sum_eq
  rw [share, share, total, passing]

theorem share_scale {factor : ℚ} (positive : 0 < factor) (cases : List (CaseResult × ℚ)) :
    share (cases.map fun case => (case.1, factor * case.2)) = share cases := by
  have total : totalWeight (cases.map fun case => (case.1, factor * case.2)) =
      factor * totalWeight cases := by
    rw [totalWeight, totalWeight, List.map_map, ← List.sum_map_mul_left]
    rfl
  have passing : passingWeight (cases.map fun case => (case.1, factor * case.2)) =
      factor * passingWeight cases := by
    rw [passingWeight, passingWeight, List.map_map, ← List.sum_map_mul_left]
    congr 1
    apply List.map_congr_left
    intro case _
    show (if case.1.passed then factor * case.2 else 0) = _
    rw [mul_ite, mul_zero]
  rw [share, share, total, passing, mul_div_mul_left _ _ positive.ne']
  simp only [mul_eq_zero, positive.ne', false_or]

end Weights

/-! ### A pass more -/

theorem totalWeight_zip {results : List CaseResult} {weights : List ℚ}
    (same : results.length = weights.length) : totalWeight (results.zip weights) = weights.sum := by
  rw [totalWeight, List.map_snd_zip same.ge]

theorem nonnegative_zip {weights : List ℚ} (nonnegative : ∀ weight ∈ weights, 0 ≤ weight)
    (results : List CaseResult) : NonnegativeWeights (results.zip weights) := by
  intro case inside
  exact nonnegative case.2 (List.of_mem_zip inside).2

/-- A case turned into a pass takes no passing weight away. -/
theorem passingWeight_set {results : List CaseResult} {weights : List ℚ}
    (nonnegative : ∀ weight ∈ weights, 0 ≤ weight) (index : Nat) :
    passingWeight (results.zip weights) ≤ passingWeight ((results.set index ⟨true⟩).zip weights) := by
  induction results generalizing weights index with
  | nil => exact le_refl _
  | cons result rest inductionHypothesis =>
      cases weights with
      | nil =>
          rw [List.zip_nil_right, List.zip_nil_right]
      | cons weight later =>
          have laterNonnegative : ∀ other ∈ later, 0 ≤ other :=
            fun other inside => nonnegative other (List.mem_cons_of_mem _ inside)
          have here := nonnegative weight List.mem_cons_self
          cases index with
          | zero =>
              rw [List.set_cons_zero]
              simp only [passingWeight, List.zip_cons_cons, List.map_cons, List.sum_cons]
              split
              · exact le_refl _
              · simpa using here
          | succ index =>
              rw [List.set_cons_succ]
              simp only [passingWeight, List.zip_cons_cons, List.map_cons, List.sum_cons]
              exact add_le_add_right (inductionHypothesis laterNonnegative index) _

/-! ### The laws of the score -/

/-- A submission's score is a proportion, which a pass more does not lower and which neither the
order of the cases nor the unit of the weights changes. It is full marks exactly when the failing
cases carry at most one part in two million of the weight, and nothing exactly when the passing ones
carry less than that; so where each positive weight is more than that, exactly when nothing of weight
failed, or passed. -/
theorem scoreSubmission_laws {results : List CaseResult} {weights : List ℚ}
    (same : results.length = weights.length) (nonnegative : ∀ weight ∈ weights, 0 ≤ weight) :
    ∃ score, scoreSubmission results (weights.map .finite) = .ok score ∧
      0 ≤ score ∧ score ≤ 1 ∧
      (∀ index, results[index]? = some ⟨false⟩ →
        ∃ raised, scoreSubmission (results.set index ⟨true⟩) (weights.map .finite) = .ok raised ∧
          score ≤ raised) ∧
      (∀ cases : List (CaseResult × ℚ), (results.zip weights).Perm cases →
        scoreSubmission (cases.map Prod.fst) ((cases.map Prod.snd).map .finite) = .ok score) ∧
      (∀ factor : ℚ, 0 < factor →
        scoreSubmission results ((weights.map (factor * ·)).map .finite) = .ok score) ∧
      ((∃ weight ∈ weights, 0 < weight) →
        (score = 1 ↔ failingWeight (results.zip weights) * 2000000 ≤ weights.sum) ∧
        (score = 0 ↔ passingWeight (results.zip weights) * 2000000 < weights.sum) ∧
        ((∀ weight ∈ weights, 0 < weight → weights.sum < weight * 2000000) →
          (score = 1 ↔ ∀ case ∈ results.zip weights, 0 < case.2 → case.1.passed = true) ∧
          (score = 0 ↔ ∀ case ∈ results.zip weights, 0 < case.2 → case.1.passed = false))) := by
  have proper := nonnegative_zip nonnegative results
  have total := totalWeight_zip same
  have bounds := share_bounds proper
  refine ⟨share (results.zip weights), scoreSubmission_eq same nonnegative, bounds.1, bounds.2,
    ?_, ?_, ?_, ?_⟩
  · intro index _
    have sameLength : (results.set index ⟨true⟩).length = weights.length := by
      rw [List.length_set, same]
    refine ⟨_, scoreSubmission_eq sameLength nonnegative, ?_⟩
    apply share_mono proper (nonnegative_zip nonnegative _)
    · rw [total, totalWeight_zip sameLength]
    · exact passingWeight_set nonnegative index
  · intro cases reordered
    have sameLength : (cases.map Prod.fst).length = (cases.map Prod.snd).length := by
      rw [List.length_map, List.length_map]
    have stillProper : ∀ weight ∈ cases.map Prod.snd, 0 ≤ weight := by
      intro weight inside
      obtain ⟨case, member, rfl⟩ := List.mem_map.mp inside
      exact proper case (reordered.mem_iff.mpr member)
    rw [scoreSubmission_eq sameLength stillProper, share_perm reordered, ← List.unzip_fst,
      ← List.unzip_snd, List.zip_unzip]
  · intro factor positive
    have stillProper : ∀ weight ∈ weights.map (factor * ·), 0 ≤ weight := by
      intro weight inside
      obtain ⟨given, member, rfl⟩ := List.mem_map.mp inside
      exact mul_nonneg positive.le (nonnegative given member)
    rw [scoreSubmission_eq (by rw [List.length_map, same]) stillProper, List.zip_map_right,
      ← share_scale positive (results.zip weights)]
    rfl
  · rintro ⟨weight, inside, positive⟩
    have weighed : 0 < totalWeight (results.zip weights) := by
      rw [total]
      exact positive.trans_le (List.single_le_sum nonnegative weight inside)
    refine ⟨?_, ?_, ?_⟩
    · rw [share_eq_one proper weighed, total]
    · rw [share_eq_zero proper weighed, total]
    · intro shows
      have allShow : ∀ case ∈ results.zip weights, 0 < case.2 →
          totalWeight (results.zip weights) < case.2 * 2000000 := by
        intro case member above
        rw [total]
        exact shows case.2 (List.of_mem_zip member).2 above
      exact ⟨share_eq_one_iff_passed proper weighed allShow,
        share_eq_zero_iff_failed proper weighed allShow⟩

/-- Two cases of one weight, one passed. -/
theorem scoreSubmission_laws_example :
    ∃ score, scoreSubmission [⟨true⟩, ⟨false⟩] [.finite 1, .finite 1] = .ok score ∧
      (score = 1 ↔ failingWeight [(⟨true⟩, 1), (⟨false⟩, 1)] * 2000000 ≤ 2) := by
  have nonnegative : ∀ weight ∈ ([1, 1] : List ℚ), 0 ≤ weight := by simp
  obtain ⟨score, scored, _, _, _, _, _, laws⟩ :=
    @scoreSubmission_laws [⟨true⟩, ⟨false⟩] [1, 1] rfl nonnegative
  have sum : ([1, 1] : List ℚ).sum = 2 := by norm_num
  have full := (laws ⟨1, List.mem_cons_self, one_pos⟩).1
  rw [sum] at full
  exact ⟨score, scored, full⟩

/-- A failed case of weight one among ten million is rounded away: full marks. -/
theorem scoreSubmission_full_with_failure :
    ¬ ∀ (results : List CaseResult) (weights : List ℚ) (score : ℚ),
      results.length = weights.length → (∀ weight ∈ weights, 0 ≤ weight) →
      (∃ weight ∈ weights, 0 < weight) →
      scoreSubmission results (weights.map .finite) = .ok score →
      (score = 1 ↔ ∀ case ∈ results.zip weights, 0 < case.2 → case.1.passed = true) := by
  intro law
  have scored : scoreSubmission [⟨true⟩, ⟨false⟩] ([10000000, 1].map .finite) = .ok 1 := by
    decide +kernel
  have nonnegative : ∀ weight ∈ ([10000000, 1] : List ℚ), 0 ≤ weight := by simp
  have passed := (law _ _ _ rfl nonnegative ⟨1, by simp, one_pos⟩ scored).mp rfl (⟨false⟩, 1)
    (by simp) one_pos
  cases passed

/-! ### The weighted mean -/

/-- A section whose score is a number between two bounds and whose weight is not negative. -/
def Between (low high : ℚ) (one : WeightedSection) : Prop :=
  ∃ score weight : ℚ, one.score = .finite score ∧ one.weight = .finite weight ∧
    low ≤ score ∧ score ≤ high ∧ 0 ≤ weight

/-- The weighted sum so far lies between the bounds times the weight so far. -/
structure MeanBetween (low high : ℚ) (sums : WeightSums) : Prop where
  weight : 0 ≤ sums.totalWeight
  above : low * sums.totalWeight ≤ sums.earnedWeight
  below : sums.earnedWeight ≤ high * sums.totalWeight

theorem addSection_between {low high : ℚ} {sums : WeightSums} {entry : WeightedSection × Nat}
    (kept : MeanBetween low high sums) (fit : Between low high entry.1) :
    ∃ next, addSection sums entry = .ok next ∧ MeanBetween low high next := by
  obtain ⟨score, weight, scored, weighed, least, most, nonnegative⟩ := fit
  have step : addSection sums entry =
      .ok ⟨sums.totalWeight + weight, sums.earnedWeight + score * weight⟩ := by
    rw [addSection, scored, weighed]
    show (assertWeight (.finite weight) _ >>= _) = _
    rw [assertWeight_finite nonnegative]
    rfl
  refine ⟨_, step, ?_⟩
  have atLeast : low * weight ≤ score * weight := mul_le_mul_of_nonneg_right least nonnegative
  have atMost : score * weight ≤ high * weight := mul_le_mul_of_nonneg_right most nonnegative
  constructor
  · exact add_nonneg kept.weight nonnegative
  · show low * (sums.totalWeight + weight) ≤ sums.earnedWeight + score * weight
    rw [mul_add]
    exact add_le_add kept.above atLeast
  · show sums.earnedWeight + score * weight ≤ high * (sums.totalWeight + weight)
    rw [mul_add]
    exact add_le_add kept.below atMost

/-- A total is on the scale of the sections: between any two bounds of six decimals that hold all
their scores, or zero where no section has weight. -/
theorem weightedTotal_between {sections : List WeightedSection} {low high : ℚ}
    (lowGrid : OnGrid SCALE low) (highGrid : OnGrid SCALE high)
    (between : ∀ one ∈ sections, Between low high one) :
    ∃ total, weightedTotal sections = .ok total ∧ (total = 0 ∨ low ≤ total ∧ total ≤ high) := by
  have anySection : ∀ (sums : WeightSums) (entry : WeightedSection × Nat),
      MeanBetween low high sums → Between low high entry.1 →
      ∃ next, addSection sums entry = .ok next ∧ MeanBetween low high next :=
    fun _ _ kept fit => addSection_between kept fit
  have start : MeanBetween low high ⟨0, 0⟩ := ⟨le_refl 0, by simp, by simp⟩
  have fit : ∀ entry ∈ sections.zipIdx, Between low high entry.1 :=
    fun entry inside => between entry.1 (List.fst_mem_of_mem_zipIdx inside)
  obtain ⟨sums, folded, kept⟩ := foldlM_ok anySection fit start
  refine ⟨_, bind_eq_ok.mpr ⟨sums, folded, rfl⟩, ?_⟩
  by_cases weightless : sums.totalWeight = 0
  · exact .inl (if_pos weightless)
  · right
    rw [if_neg weightless]
    have positive : 0 < sums.totalWeight := lt_of_le_of_ne kept.weight (Ne.symm weightless)
    constructor
    · exact le_toFixed lowGrid ((le_div_iff₀ positive).mpr kept.above)
    · exact toFixed_le highGrid ((div_le_iff₀ positive).mpr kept.below)

end Assaybank.Grading
