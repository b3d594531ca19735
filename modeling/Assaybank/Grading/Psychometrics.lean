import Assaybank.Library.Moments
import Mathlib.Analysis.Real.Sqrt
import Mathlib.Data.List.Sort
import Mathlib.Data.Prod.Lex
import Mathlib.Tactic.Linarith

/-!
Owns the statistics of one question version (`packages/grading/src/psychometrics.ts`), in exact
arithmetic: any field with an order, a floor and a square root that is handed in.

Contract: over the reals, the statistics are those of the mean proportion and of the correlation of
proportion and rest score (`computeItemStatistics_eq`). They do not depend on the order of the
responses, the p-value is a proportion, and the discrimination lies between minus one and one and is
undefined exactly where there are too few responses or a variance is zero
(`computeItemStatistics_laws`).
-/

namespace Assaybank.Grading

open Assaybank.Library

def MIN_RESPONSES_FOR_STATS : Nat := 30

/-- One candidate's result on one question version, within one finalised attempt. -/
structure ItemResponse (K : Type) where
  itemScore : K
  itemMax : K
  /-- The attempt's total score, including this item. -/
  totalScore : K
  seconds : K
deriving DecidableEq

structure ItemStatistics (K : Type) where
  /-- Responses that contributed. -/
  n : Nat
  pValue : Option K
  discrimination : Option K
  meanSeconds : Option K
deriving DecidableEq

section Code

variable {K : Type} [Field K] [LinearOrder K]

/-- `Math.round(value * factor) / factor`. -/
def roundTo [FloorRing K] (value : K) (places : Nat) : K :=
  let factor := (10 : K) ^ places
  ⌊value * factor + 1 / 2⌋ / factor

/-- A loop that adds a term for each index below `n`. -/
def sumOver (n : Nat) (term : Nat → K) : K := (List.range n).foldl (fun sum i => sum + term i) 0

/-- The correlation of two lists, or `none` when either is constant. -/
def pearson (sqrt : K → K) (xs ys : List K) : Option K :=
  let n := xs.length
  let meanX := sumOver n (fun i => xs.getD i 0) / n
  let meanY := sumOver n (fun i => ys.getD i 0) / n
  let dx := fun i => xs.getD i 0 - meanX
  let dy := fun i => ys.getD i 0 - meanY
  let sxy := sumOver n fun i => dx i * dy i
  let sxx := sumOver n fun i => dx i * dx i
  let syy := sumOver n fun i => dy i * dy i
  if sxx = 0 ∨ syy = 0 then none else some (sxy / sqrt (sxx * syy))

/-- The comparator of the sort: the first difference that is not zero. -/
def compareResponses (a b : ItemResponse K) : K :=
  if a.itemScore - b.itemScore ≠ 0 then a.itemScore - b.itemScore
  else if a.itemMax - b.itemMax ≠ 0 then a.itemMax - b.itemMax
  else if a.totalScore - b.totalScore ≠ 0 then a.totalScore - b.totalScore
  else a.seconds - b.seconds

/-- The responses that contribute, sorted before any summation. -/
def usable (responses : List (ItemResponse K)) : List (ItemResponse K) :=
  (responses.filter fun r => decide (0 < r.itemMax)).insertionSort
    fun a b => compareResponses a b ≤ 0

def ItemResponse.proportion (r : ItemResponse K) : K := r.itemScore / r.itemMax

/-- The total minus this item. -/
def ItemResponse.restScore (r : ItemResponse K) : K := r.totalScore - r.itemScore

def computeItemStatistics [FloorRing K] (sqrt : K → K) (responses : List (ItemResponse K)) :
    ItemStatistics K :=
  let used := usable responses
  let n := used.length
  if n < MIN_RESPONSES_FOR_STATS then ⟨n, none, none, none⟩
  else
    let proportions := used.map ItemResponse.proportion
    let restScores := used.map ItemResponse.restScore
    let proportionSum := sumOver n fun i => proportions.getD i 0
    let secondsSum := sumOver n fun i => (used[i]?.map ItemResponse.seconds).getD 0
    { n
      pValue := some (roundTo (proportionSum / n) 4)
      discrimination := (pearson sqrt proportions restScores).map fun value => roundTo value 4
      meanSeconds := some (roundTo (secondsSum / n) 2) }

end Code

/-! ### The order of the responses -/

section Order

variable {K : Type} [Field K] [LinearOrder K] [IsStrictOrderedRing K]

/-- The fields by which responses are sorted. -/
private def sortKey (r : ItemResponse K) : K ×ₗ K ×ₗ K ×ₗ K :=
  toLex (r.itemScore, toLex (r.itemMax, toLex (r.totalScore, r.seconds)))

private theorem compareResponses_le {a b : ItemResponse K} :
    compareResponses a b ≤ 0 ↔ sortKey a ≤ sortKey b := by
  have step : ∀ (x y : K) (rest : K) (later : Prop), (rest ≤ 0 ↔ later) →
      ((if x - y ≠ 0 then x - y else rest) ≤ 0 ↔ x < y ∨ x = y ∧ later) := by
    intro x y rest later same
    by_cases equal : x = y
    · rw [if_neg (not_not_intro (sub_eq_zero.mpr equal)), same]
      constructor
      · exact fun holds => .inr ⟨equal, holds⟩
      · rintro (less | ⟨_, holds⟩)
        · exact absurd equal less.ne
        · exact holds
    · rw [if_pos (sub_ne_zero.mpr equal), sub_nonpos, le_iff_lt_or_eq]
      constructor
      · rintro (less | same)
        · exact .inl less
        · exact absurd same equal
      · rintro (less | ⟨same, _⟩)
        · exact .inl less
        · exact absurd same equal
  rw [compareResponses, sortKey, sortKey, Prod.Lex.toLex_le_toLex]
  apply step
  rw [Prod.Lex.toLex_le_toLex]
  apply step
  rw [Prod.Lex.toLex_le_toLex]
  exact step _ _ _ _ sub_nonpos

omit [Field K] [LinearOrder K] [IsStrictOrderedRing K] in
private theorem sortKey_injective {a b : ItemResponse K} (same : sortKey a = sortKey b) : a = b := by
  cases a
  cases b
  simp only [sortKey, EmbeddingLike.apply_eq_iff_eq, Prod.mk.injEq] at same
  obtain ⟨score, max, total, seconds⟩ := same
  rw [score, max, total, seconds]

private theorem pairwise_usable (responses : List (ItemResponse K)) :
    (usable responses).Pairwise fun a b => compareResponses a b ≤ 0 := by
  have total : Std.Total fun a b : ItemResponse K => compareResponses a b ≤ 0 := by
    constructor
    intro a b
    rw [compareResponses_le, compareResponses_le]
    exact le_total _ _
  have transitive : IsTrans (ItemResponse K) fun a b => compareResponses a b ≤ 0 := by
    constructor
    intro a b c
    rw [compareResponses_le, compareResponses_le, compareResponses_le]
    exact le_trans
  exact List.pairwise_insertionSort _ _

omit [IsStrictOrderedRing K] in
theorem perm_usable (responses : List (ItemResponse K)) :
    (usable responses).Perm (responses.filter fun r => decide (0 < r.itemMax)) :=
  List.perm_insertionSort _ _

/-- The sort forgets the order in which the responses arrived. -/
theorem usable_congr {responses other : List (ItemResponse K)} (reordered : responses.Perm other) :
    usable responses = usable other := by
  have same : (usable responses).Perm (usable other) :=
    (perm_usable responses).trans ((reordered.filter _).trans (perm_usable other).symm)
  apply List.Perm.eq_of_pairwise _ (pairwise_usable responses) (pairwise_usable other) same
  intro a b _ _ forth back
  exact sortKey_injective (le_antisymm (compareResponses_le.mp forth) (compareResponses_le.mp back))

end Order

/-! ### The sums of the loops -/

section Sums

variable {α K : Type} [Field K]

private theorem sumOver_eq (n : Nat) (term : Nat → K) :
    sumOver n term = ((List.range n).map term).sum := by
  have shifted : ∀ (indices : List Nat) (start : K),
      indices.foldl (fun sum i => sum + term i) start = start + (indices.map term).sum := by
    intro indices
    induction indices with
    | nil =>
        intro start
        rw [List.foldl_nil, List.map_nil, List.sum_nil, add_zero]
    | cons index rest inductionHypothesis =>
        intro start
        rw [List.foldl_cons, inductionHypothesis, List.map_cons, List.sum_cons, add_assoc]
  rw [sumOver, shifted, zero_add]

/-- A loop over the indices of a list is a sum over the list. -/
theorem sumOver_list (items : List α) (term : Nat → K) (value : α → K)
    (read : ∀ i (inside : i < items.length), term i = value items[i]) :
    sumOver items.length term = (items.map value).sum := by
  rw [sumOver_eq]
  congr 1
  apply List.ext_getElem
  · simp
  · intro i first second
    rw [List.length_map] at second
    simp [read i second]

private theorem getD_map (items : List α) (f : α → K) (i : Nat) (inside : i < items.length) :
    (items.map f).getD i 0 = f items[i] := by
  rw [List.getD_eq_getElem?_getD, List.getElem?_map, List.getElem?_eq_getElem inside]
  rfl

end Sums

section Correlation

variable {α K : Type} [Field K] [LinearOrder K]

/-- The correlation of two measures of one sample. -/
theorem pearson_eq (sqrt : K → K) (f g : α → K) (sample : List α) :
    pearson sqrt (sample.map f) (sample.map g) =
      if spread (sample.map f) = 0 ∨ spread (sample.map g) = 0 then none
      else
        some (covariation f g sample / sqrt (spread (sample.map f) * spread (sample.map g))) := by
  have sumOf : ∀ h : α → K, sumOver sample.length (fun i => (sample.map h).getD i 0) =
      (sample.map h).sum := by
    intro h
    exact sumOver_list sample _ h (getD_map sample h)
  have meanOf : ∀ h : α → K, sumOver sample.length (fun i => (sample.map h).getD i 0) /
      sample.length = mean (sample.map h) := by
    intro h
    rw [sumOf, mean, List.length_map]
  have products : ∀ h k : α → K, sumOver sample.length (fun i =>
      ((sample.map h).getD i 0 - mean (sample.map h)) *
        ((sample.map k).getD i 0 - mean (sample.map k))) = covariation h k sample := by
    intro h k
    apply sumOver_list
    intro i inside
    rw [getD_map sample h i inside, getD_map sample k i inside]
  have squares : ∀ h : α → K, covariation h h sample = spread (sample.map h) := by
    intro h
    rw [covariation, spread, List.map_map]
    rfl
  simp only [pearson, List.length_map, meanOf, products, squares]

end Correlation

/-! ### The laws of the statistics -/

section Rounding

variable {value : ℝ} {places : Nat} {bound : ℤ}

theorem roundTo_le (below : value ≤ bound) : roundTo value places ≤ bound := by
  have factor : (0 : ℝ) < 10 ^ places := by positivity
  rw [roundTo, div_le_iff₀ factor]
  have floor : ⌊value * 10 ^ places + 1 / 2⌋ ≤ bound * 10 ^ places := by
    rw [← Int.lt_add_one_iff, Int.floor_lt]
    push_cast
    have scaled := mul_le_mul_of_nonneg_right below factor.le
    linarith
  exact_mod_cast floor

theorem le_roundTo (above : (bound : ℝ) ≤ value) : bound ≤ roundTo value places := by
  have factor : (0 : ℝ) < 10 ^ places := by positivity
  rw [roundTo, le_div_iff₀ factor]
  have floor : bound * 10 ^ places ≤ ⌊value * 10 ^ places + 1 / 2⌋ := by
    rw [Int.le_floor]
    push_cast
    have scaled := mul_le_mul_of_nonneg_right above factor.le
    linarith
  exact_mod_cast floor

end Rounding

/-- The statistics over the reals, by the moments of what is used. -/
theorem computeItemStatistics_eq (responses : List (ItemResponse ℝ))
    (enough : MIN_RESPONSES_FOR_STATS ≤ (usable responses).length) :
    computeItemStatistics Real.sqrt responses =
      { n := (usable responses).length
        pValue := some (roundTo (mean ((usable responses).map ItemResponse.proportion)) 4)
        discrimination := (pearson Real.sqrt ((usable responses).map ItemResponse.proportion)
          ((usable responses).map ItemResponse.restScore)).map fun value => roundTo value 4
        meanSeconds := some (roundTo (mean ((usable responses).map ItemResponse.seconds)) 2) } := by
  have proportions : sumOver (usable responses).length
      (fun i => ((usable responses).map ItemResponse.proportion).getD i 0) =
      ((usable responses).map ItemResponse.proportion).sum :=
    sumOver_list _ _ _ (getD_map _ _)
  have seconds : sumOver (usable responses).length
      (fun i => ((usable responses)[i]?.map ItemResponse.seconds).getD 0) =
      ((usable responses).map ItemResponse.seconds).sum := by
    apply sumOver_list
    intro i inside
    rw [List.getElem?_eq_getElem inside]
    rfl
  simp only [computeItemStatistics, if_neg (not_lt.mpr enough), proportions, seconds, mean,
    List.length_map]

/-- A correlation is at most one in size. -/
theorem pearson_sq_le {α : Type} {f g : α → ℝ} {sample : List α} {value : ℝ}
    (defined : pearson Real.sqrt (sample.map f) (sample.map g) = some value) : value ^ 2 ≤ 1 := by
  rw [pearson_eq] at defined
  split at defined
  · cases defined
  · rename_i varied
    cases defined
    have product : 0 < spread (sample.map f) * spread (sample.map g) := by
      apply mul_pos
      · exact lt_of_le_of_ne (spread_nonneg _) (fun same => varied (.inl same.symm))
      · exact lt_of_le_of_ne (spread_nonneg _) (fun same => varied (.inr same.symm))
    rw [div_pow, Real.sq_sqrt product.le, div_le_one product]
    exact covariation_sq_le f g sample

/-- The statistics do not depend on the order of the responses. The p-value is a proportion, and
there is one as soon as there are enough responses. The discrimination is at most one in size, and
is undefined exactly for too few responses or where the proportions or the rest scores do not
vary. -/
theorem computeItemStatistics_laws (responses : List (ItemResponse ℝ))
    (scored : ∀ r ∈ responses, 0 ≤ r.itemScore ∧ r.itemScore ≤ r.itemMax) :
    (∀ other, responses.Perm other →
      computeItemStatistics Real.sqrt other = computeItemStatistics Real.sqrt responses) ∧
    ((computeItemStatistics Real.sqrt responses).pValue = none ↔
      (responses.filter fun r => decide (0 < r.itemMax)).length < MIN_RESPONSES_FOR_STATS) ∧
    (∀ p, (computeItemStatistics Real.sqrt responses).pValue = some p → 0 ≤ p ∧ p ≤ 1) ∧
    (∀ d, (computeItemStatistics Real.sqrt responses).discrimination = some d → d ^ 2 ≤ 1) ∧
    ((computeItemStatistics Real.sqrt responses).discrimination = none ↔
      (responses.filter fun r => decide (0 < r.itemMax)).length < MIN_RESPONSES_FOR_STATS ∨
      variance ((responses.filter fun r => decide (0 < r.itemMax)).map
        ItemResponse.proportion) = 0 ∨
      variance ((responses.filter fun r => decide (0 < r.itemMax)).map
        ItemResponse.restScore) = 0) := by
  have used := perm_usable responses
  rw [← used.length_eq, ← variance_perm (used.map ItemResponse.proportion),
    ← variance_perm (used.map ItemResponse.restScore)]
  have reordered : ∀ other, responses.Perm other →
      computeItemStatistics Real.sqrt other = computeItemStatistics Real.sqrt responses := by
    intro other same
    simp only [computeItemStatistics, usable_congr same]
  by_cases few : (usable responses).length < MIN_RESPONSES_FOR_STATS
  · have nothing : computeItemStatistics Real.sqrt responses =
        ⟨(usable responses).length, none, none, none⟩ := by
      simp only [computeItemStatistics, if_pos few]
    rw [nothing]
    refine ⟨fun other same => (reordered other same).trans nothing, iff_of_true rfl few, ?_, ?_,
      iff_of_true rfl (.inl few)⟩
    · intro p impossible
      cases impossible
    · intro d impossible
      cases impossible
  · have statistics := computeItemStatistics_eq responses (not_lt.mp few)
    refine ⟨reordered, ?_, ?_, ?_, ?_⟩
    · rw [statistics]
      exact iff_of_false (fun impossible => nomatch impossible) few
    · intro p given
      rw [statistics] at given
      cases given
      have filled : (usable responses).map ItemResponse.proportion ≠ [] := by
        rw [Ne, List.map_eq_nil_iff]
        intro empty
        rw [empty] at few
        exact few (by decide)
      have between : ∀ x ∈ (usable responses).map ItemResponse.proportion, (0 : ℝ) ≤ x ∧ x ≤ 1 := by
        intro x inside
        obtain ⟨r, member, rfl⟩ := List.mem_map.mp inside
        have kept := List.mem_filter.mp (used.mem_iff.mp member)
        have positive : 0 < r.itemMax := of_decide_eq_true kept.2
        have bounds := scored r kept.1
        exact ⟨div_nonneg bounds.1 positive.le, (div_le_one positive).mpr bounds.2⟩
      obtain ⟨low, high⟩ := mean_between filled between
      have least : ((0 : ℤ) : ℝ) ≤ roundTo (mean ((usable responses).map ItemResponse.proportion)) 4 :=
        le_roundTo (by exact_mod_cast low)
      have most : roundTo (mean ((usable responses).map ItemResponse.proportion)) 4 ≤ ((1 : ℤ) : ℝ) :=
        roundTo_le (by exact_mod_cast high)
      exact ⟨by exact_mod_cast least, by exact_mod_cast most⟩
    · intro d given
      rw [statistics] at given
      obtain ⟨value, defined, rounded⟩ := Option.map_eq_some_iff.mp given
      have size := abs_le.mp ((sq_le_one_iff_abs_le_one value).mp (pearson_sq_le defined))
      rw [← rounded, sq_le_one_iff_abs_le_one, abs_le]
      have least : ((-1 : ℤ) : ℝ) ≤ roundTo value 4 := le_roundTo (by exact_mod_cast size.1)
      have most : roundTo value 4 ≤ ((1 : ℤ) : ℝ) := roundTo_le (by exact_mod_cast size.2)
      exact ⟨by exact_mod_cast least, by exact_mod_cast most⟩
    · rw [statistics]
      show (pearson _ _ _).map _ = none ↔ _
      rw [Option.map_eq_none_iff, pearson_eq, variance_eq_zero_iff_spread,
        variance_eq_zero_iff_spread]
      constructor
      · intro undefined
        split at undefined
        · rename_i flat
          exact .inr flat
        · cases undefined
      · intro cause
        exact if_pos (cause.resolve_left few)

/-- Fifteen candidates who earned an item and one point beside it, and fifteen who earned nothing. -/
noncomputable def halfEarned : List (ItemResponse ℝ) :=
  List.replicate 15 ⟨1, 1, 2, 10⟩ ++ List.replicate 15 ⟨0, 1, 0, 20⟩

private theorem variance_halves : variance (List.replicate 15 (1 : ℝ) ++ List.replicate 15 0) ≠ 0 := by
  have average : mean (List.replicate 15 (1 : ℝ) ++ List.replicate 15 0) = 1 / 2 := by
    rw [mean, List.sum_append, List.sum_replicate, List.sum_replicate, List.length_append,
      List.length_replicate, List.length_replicate]
    norm_num
  rw [Ne, variance_eq_zero_iff_spread, spread, average, List.map_append, List.map_replicate,
    List.map_replicate, List.sum_append, List.sum_replicate, List.sum_replicate]
  norm_num

theorem computeItemStatistics_laws_example :
    ∃ p d, (computeItemStatistics Real.sqrt halfEarned).pValue = some p ∧ 0 ≤ p ∧ p ≤ 1 ∧
      (computeItemStatistics Real.sqrt halfEarned).discrimination = some d ∧ d ^ 2 ≤ 1 := by
  have scored : ∀ r ∈ halfEarned, 0 ≤ r.itemScore ∧ r.itemScore ≤ r.itemMax := by
    intro r inside
    rcases List.mem_append.mp inside with earned | missed
    · rw [List.eq_of_mem_replicate earned]
      exact ⟨zero_le_one, le_rfl⟩
    · rw [List.eq_of_mem_replicate missed]
      exact ⟨le_rfl, zero_le_one⟩
  obtain ⟨_, defined, proportion, size, undefined⟩ := computeItemStatistics_laws _ scored
  have all : halfEarned.filter (fun r => decide (0 < r.itemMax)) = halfEarned := by
    refine List.filter_eq_self.mpr fun r inside => decide_eq_true ?_
    rcases List.mem_append.mp inside with earned | missed
    · rw [List.eq_of_mem_replicate earned]
      exact zero_lt_one
    · rw [List.eq_of_mem_replicate missed]
      exact zero_lt_one
  have enough : ¬ halfEarned.length < MIN_RESPONSES_FOR_STATS := by
    rw [halfEarned, List.length_append, List.length_replicate, List.length_replicate]
    decide
  have proportions : halfEarned.map ItemResponse.proportion =
      List.replicate 15 (1 : ℝ) ++ List.replicate 15 0 := by
    rw [halfEarned, List.map_append, List.map_replicate, List.map_replicate, ItemResponse.proportion,
      ItemResponse.proportion, div_one, div_one]
  have rests : halfEarned.map ItemResponse.restScore =
      List.replicate 15 (1 : ℝ) ++ List.replicate 15 0 := by
    rw [halfEarned, List.map_append, List.map_replicate, List.map_replicate, ItemResponse.restScore,
      ItemResponse.restScore, sub_zero]
    norm_num
  rw [all] at defined undefined
  rw [proportions, rests] at undefined
  obtain ⟨p, given⟩ := Option.ne_none_iff_exists'.mp fun none => enough (defined.mp none)
  obtain ⟨d, known⟩ := Option.ne_none_iff_exists'.mp fun none => by
    rcases undefined.mp none with few | flat | flat
    · exact enough few
    · exact variance_halves flat
    · exact variance_halves flat
  exact ⟨p, d, given, (proportion p given).1, (proportion p given).2, known, size d known⟩

example : computeItemStatistics (fun _ : ℚ => 15 / 2)
    (List.replicate 15 ⟨1, 1, 2, 10⟩ ++ List.replicate 15 ⟨0, 1, 0, 20⟩) =
      ⟨30, some (1 / 2), some 1, some 15⟩ := by decide +kernel

end Assaybank.Grading
