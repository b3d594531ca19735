import Assaybank.Grading.Score
import Assaybank.Runtime.Rounding

/-!
Owns what a selection more does to the marks of a choice question
(`packages/grading/src/mcq.ts`), in any arithmetic that keeps order.

Contract: the marks are a function of how many of the selected options are correct and how many are
not (`gradeMcqIn_eq`), so neither order nor repeats count; a correct option more never lowers them
and a wrong one never raises them (`gradeMcqIn_laws`). The arithmetic does not overflow.
-/

namespace Assaybank.Grading

open Assaybank.Runtime Assaybank.Library

/-- `gradeMcq`, with each of its divisions, products and differences rounded. -/
def gradeMcqIn (rounding : Rounding) (selected correct : List JsString) (opts : McqScoringOptions) :
    Except RangeError ℚ := do
  let maxScore ← assertFiniteAtLeast opts.maxScore (js "maxScore") 0
  let negativeScore ← assertFiniteAtLeast opts.negativeScore (js "negativeScore") 0
  let correctSet := distinct correct
  let selectedSet := distinct selected
  if correctSet.length = 0 then .error .noCorrectOption
  else if selectedSet.length = 0 then .ok 0
  else
    let hits := (selectedSet.filter fun option => correctSet.contains option).length
    let misses := selectedSet.length - hits
    if opts.partialCredit = false then
      .ok (roundScore
        (if misses = 0 ∧ hits = correctSet.length then maxScore
        else floored opts.allowNegativeTotal (-negativeScore)))
    else
      let perCorrectOption := rounding.nearest (maxScore / correctSet.length)
      let raw := rounding.nearest
        (rounding.nearest (perCorrectOption * hits) - rounding.nearest (negativeScore * misses))
      .ok (roundScore (min maxScore (floored opts.allowNegativeTotal raw)))

/-- Without rounding it is `gradeMcq`. -/
theorem gradeMcqIn_exact : gradeMcqIn .exact = gradeMcq := rfl

/-! ### Hits and misses -/

/-- How many of the selected options are correct. -/
def hitCount (selected correct : List JsString) : Nat :=
  ((distinct selected).filter fun option => (distinct correct).contains option).length

/-- How many of the selected options are not. -/
def missCount (selected correct : List JsString) : Nat :=
  (distinct selected).length - hitCount selected correct

section Counts

variable {selected other correct : List JsString} {option : JsString}

private theorem contains_correct :
    ((distinct correct).contains option) = true ↔ option ∈ correct := by
  rw [List.contains_iff_mem, mem_distinct]

/-- Selections of the same options have the same hits and misses. -/
theorem counts_congr (same : ∀ option, option ∈ other ↔ option ∈ selected) :
    hitCount other correct = hitCount selected correct ∧
      missCount other correct = missCount selected correct := by
  have reordered : (distinct other).Perm (distinct selected) := by
    rw [List.perm_ext_iff_of_nodup (nodup_distinct other) (nodup_distinct selected)]
    intro option
    rw [mem_distinct, mem_distinct, same]
  have hits : hitCount other correct = hitCount selected correct := (reordered.filter _).length_eq
  exact ⟨hits, by rw [missCount, missCount, hits, reordered.length_eq]⟩

private theorem distinct_cons (fresh : option ∉ selected) :
    (distinct (option :: selected)).Perm (option :: distinct selected) := by
  have once : (option :: distinct selected).Nodup :=
    List.nodup_cons.mpr ⟨fun inside => fresh (mem_distinct.mp inside), nodup_distinct selected⟩
  rw [List.perm_ext_iff_of_nodup (nodup_distinct _) once]
  intro one
  rw [mem_distinct, List.mem_cons, List.mem_cons, mem_distinct]

theorem hitCount_le_selected : hitCount selected correct ≤ (distinct selected).length :=
  List.length_filter_le _ _

theorem hitCount_le_correct : hitCount selected correct ≤ (distinct correct).length := by
  have once : ((distinct selected).filter fun option => (distinct correct).contains option).Nodup :=
    (nodup_distinct selected).filter _
  apply (once.subperm ?_).length_le
  intro option inside
  exact List.contains_iff_mem.mp (List.mem_filter.mp inside).2

/-- A correct option more is a hit more. -/
theorem counts_correct (fresh : option ∉ selected) (right : option ∈ correct) :
    hitCount (option :: selected) correct = hitCount selected correct + 1 ∧
      missCount (option :: selected) correct = missCount selected correct := by
  have more := distinct_cons fresh
  have hits : hitCount (option :: selected) correct = hitCount selected correct + 1 := by
    rw [hitCount, (more.filter _).length_eq, List.filter_cons_of_pos (contains_correct.mpr right),
      List.length_cons]
    rfl
  refine ⟨hits, ?_⟩
  rw [missCount, missCount, hits, more.length_eq, List.length_cons]
  omega

/-- A wrong option more is a miss more. -/
theorem counts_wrong (fresh : option ∉ selected) (wrong : option ∉ correct) :
    hitCount (option :: selected) correct = hitCount selected correct ∧
      missCount (option :: selected) correct = missCount selected correct + 1 := by
  have more := distinct_cons fresh
  have hits : hitCount (option :: selected) correct = hitCount selected correct := by
    rw [hitCount, (more.filter _).length_eq,
      List.filter_cons_of_neg (fun right => wrong (contains_correct.mp right))]
    rfl
  have few : hitCount selected correct ≤ (distinct selected).length := hitCount_le_selected
  refine ⟨hits, ?_⟩
  rw [missCount, missCount, hits, more.length_eq, List.length_cons]
  omega

end Counts

/-! ### Marks -/

/-- The marks before they are rounded to a score, of `size` correct options. -/
def marks (rounding : Rounding) (maxScore negativeScore : ℚ) (opts : McqScoringOptions)
    (size hits misses : Nat) : ℚ :=
  if opts.partialCredit = false then
    if misses = 0 ∧ hits = size then maxScore else floored opts.allowNegativeTotal (-negativeScore)
  else
    min maxScore (floored opts.allowNegativeTotal (rounding.nearest
      (rounding.nearest (rounding.nearest (maxScore / size) * hits) -
        rounding.nearest (negativeScore * misses))))

private theorem distinct_length_ne {options : List JsString} (filled : options ≠ []) :
    (distinct options).length ≠ 0 := by
  intro empty
  rw [List.length_eq_zero_iff] at empty
  obtain ⟨first, inside⟩ := List.exists_mem_of_ne_nil options filled
  have member := mem_distinct.mpr inside
  rw [empty] at member
  cases member

/-- The score of a selection, by its hits and misses. -/
theorem gradeMcqIn_eq {rounding : Rounding} {selected correct : List JsString}
    {opts : McqScoringOptions} {maxScore negativeScore : ℚ}
    (maximum : opts.maxScore = .finite maxScore) (proper : 0 ≤ maxScore)
    (penalty : opts.negativeScore = .finite negativeScore) (properPenalty : 0 ≤ negativeScore)
    (authored : correct ≠ []) (answered : selected ≠ []) :
    gradeMcqIn rounding selected correct opts =
      .ok (roundScore (marks rounding maxScore negativeScore opts (distinct correct).length
        (hitCount selected correct) (missCount selected correct))) := by
  unfold gradeMcqIn
  rw [assertFiniteAtLeast_eq_ok.mpr ⟨maximum, proper⟩,
    assertFiniteAtLeast_eq_ok.mpr ⟨penalty, properPenalty⟩]
  simp only [bind, Except.bind, if_neg (distinct_length_ne authored),
    if_neg (distinct_length_ne answered)]
  rw [marks]
  split
  · rfl
  · rfl

/-- What a score that was given says about the question. -/
theorem gradeMcqIn_ok {rounding : Rounding} {selected correct : List JsString}
    {opts : McqScoringOptions} {score : ℚ}
    (graded : gradeMcqIn rounding selected correct opts = .ok score) :
    (∃ maxScore, opts.maxScore = .finite maxScore ∧ 0 ≤ maxScore) ∧
      (∃ negativeScore, opts.negativeScore = .finite negativeScore ∧ 0 ≤ negativeScore) ∧
      correct ≠ [] := by
  unfold gradeMcqIn at graded
  obtain ⟨maxScore, maximum, graded⟩ := bind_eq_ok.mp graded
  obtain ⟨negativeScore, penalty, graded⟩ := bind_eq_ok.mp graded
  refine ⟨⟨maxScore, assertFiniteAtLeast_eq_ok.mp maximum⟩,
    ⟨negativeScore, assertFiniteAtLeast_eq_ok.mp penalty⟩, ?_⟩
  intro empty
  have none : (distinct ([] : List JsString)).length = 0 := rfl
  dsimp only at graded
  rw [empty, if_pos none] at graded
  cases graded

section Order

variable {rounding : Rounding} {maxScore negativeScore : ℚ} {opts : McqScoringOptions}
  {size hits more misses few : Nat}

private theorem floored_mono {allowed : Option Bool} {low high : ℚ} (ordered : low ≤ high) :
    floored allowed low ≤ floored allowed high := by
  unfold floored
  split
  · exact ordered
  · exact max_le_max_left 0 ordered

private theorem floored_penalty_le {allowed : Option Bool} (proper : 0 ≤ maxScore)
    (penalty : 0 ≤ negativeScore) : floored allowed (-negativeScore) ≤ maxScore := by
  unfold floored
  split
  · linarith
  · exact max_le proper (by linarith)

/-- More hits never give fewer marks, nor do fewer misses. -/
theorem marks_mono (proper : 0 ≤ maxScore) (penalty : 0 ≤ negativeScore) (raised : hits ≤ more)
    (within : more ≤ size) (lowered : few ≤ misses) :
    marks rounding maxScore negativeScore opts size hits misses ≤
      marks rounding maxScore negativeScore opts size more few := by
  unfold marks
  split
  · by_cases whole : misses = 0 ∧ hits = size
    · -- A complete selection stays complete.
      have stillWhole : few = 0 ∧ more = size := by omega
      rw [if_pos whole, if_pos stillWhole]
    · rw [if_neg whole]
      split
      · exact floored_penalty_le proper penalty
      · exact le_refl _
  · have share : 0 ≤ rounding.nearest (maxScore / size) :=
      rounding.nonneg (div_nonneg proper (Nat.cast_nonneg size))
    have gained : rounding.nearest (rounding.nearest (maxScore / size) * hits) ≤
        rounding.nearest (rounding.nearest (maxScore / size) * more) :=
      rounding.mono (mul_le_mul_of_nonneg_left (Nat.cast_le.mpr raised) share)
    have lost : rounding.nearest (negativeScore * few) ≤ rounding.nearest (negativeScore * misses) :=
      rounding.mono (mul_le_mul_of_nonneg_left (Nat.cast_le.mpr lowered) penalty)
    exact min_le_min_left _ (floored_mono (rounding.mono (sub_le_sub gained lost)))

end Order

/-! ### The laws of a selection -/

/-- The score of a selection that is not empty depends on the options in it alone. A correct option
more never lowers it, and a wrong one never raises it. -/
theorem gradeMcqIn_laws (rounding : Rounding) (selected correct : List JsString)
    (opts : McqScoringOptions) (answered : selected ≠ []) :
    (∀ other, (∀ option, option ∈ other ↔ option ∈ selected) →
      gradeMcqIn rounding other correct opts = gradeMcqIn rounding selected correct opts) ∧
    ∀ option score, gradeMcqIn rounding selected correct opts = .ok score →
      ∃ after, gradeMcqIn rounding (option :: selected) correct opts = .ok after ∧
        (option ∈ correct → score ≤ after) ∧ (option ∉ correct → after ≤ score) := by
  have congruent : ∀ other, (∀ option, option ∈ other ↔ option ∈ selected) →
      gradeMcqIn rounding other correct opts = gradeMcqIn rounding selected correct opts := by
    intro other same
    have length := length_distinct_congr same
    have hits : ((distinct other).filter fun option => (distinct correct).contains option).length =
        ((distinct selected).filter fun option => (distinct correct).contains option).length :=
      (counts_congr same).1
    simp only [gradeMcqIn, length, hits]
  refine ⟨congruent, ?_⟩
  intro option score graded
  obtain ⟨⟨maxScore, maximum, proper⟩, ⟨negativeScore, penalty, properPenalty⟩, authored⟩ :=
    gradeMcqIn_ok graded
  by_cases fresh : option ∉ selected
  · rw [gradeMcqIn_eq maximum proper penalty properPenalty authored answered] at graded
    cases graded
    refine ⟨_, gradeMcqIn_eq maximum proper penalty properPenalty authored (List.cons_ne_nil _ _),
      ?_, ?_⟩
    · intro right
      obtain ⟨hits, misses⟩ := counts_correct fresh right
      have within : hitCount (option :: selected) correct ≤ (distinct correct).length :=
        hitCount_le_correct
      apply toFixed_mono
      rw [misses]
      exact marks_mono proper properPenalty (by omega) within (le_refl _)
    · intro wrong
      obtain ⟨hits, misses⟩ := counts_wrong fresh wrong
      apply toFixed_mono
      rw [hits]
      exact marks_mono proper properPenalty (le_refl _) hitCount_le_correct (by omega)
  · have same : ∀ one, one ∈ option :: selected ↔ one ∈ selected := by
      intro one
      rw [List.mem_cons, or_iff_right_of_imp]
      intro here
      rw [here]
      exact not_not.mp fresh
    refine ⟨score, (congruent _ same).trans graded, fun _ => le_refl _, fun _ => le_refl _⟩

/-- One of two correct options, and then the other. -/
theorem gradeMcqIn_laws_example :
    ∃ after, gradeMcqIn .exact [js "b", js "a"] [js "a", js "b"]
      ⟨.finite 10, .finite 1, true, none⟩ = .ok after ∧ 5 ≤ after := by
  have half : gradeMcqIn .exact [js "a"] [js "a", js "b"] ⟨.finite 10, .finite 1, true, none⟩ =
      .ok 5 := by decide +kernel
  obtain ⟨after, graded, right, _⟩ :=
    (gradeMcqIn_laws .exact [js "a"] _ _ (List.cons_ne_nil _ _)).2 (js "b") 5 half
  exact ⟨after, graded, right (by decide +kernel)⟩

end Assaybank.Grading
