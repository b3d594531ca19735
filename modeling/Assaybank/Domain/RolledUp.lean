import Assaybank.Domain.SkillScores
import Mathlib.Algebra.BigOperators.Group.List.Basic

/-!
Owns what the roll-up of marks computes (`packages/core-domain/src/skill-scores.ts`), in exact
arithmetic.

Contract: the loop refuses exactly the questions out of range and the weights it consults that are
not finite or below zero (`rollUpSkillScores_accepts_iff`). Under positive weights each skill is
given the marks it earned over the marks available, rounded once, whatever the weights and the order
of the questions (`rollUpSkillScores_ratio`).
-/

namespace Assaybank.Domain

open Assaybank.Runtime Assaybank.Library

variable {SkillId : Type} [DecidableEq SkillId]

/-! ### The totals of a skill -/

/-- The marks a value denotes; one that is not finite denotes none. -/
def marksOf : JsDouble → ℚ
  | .finite number => number
  | _ => 0

/-- The questions tagged with a skill, each once however often it is tagged. -/
def taggedWith (skill : SkillId) (perQuestion : List (QuestionSkillScore SkillId)) :
    List (QuestionSkillScore SkillId) :=
  perQuestion.filter fun question => decide (skill ∈ question.skillIds)

/-- The marks earned over the questions tagged with a skill. -/
def totalScore (skill : SkillId) (perQuestion : List (QuestionSkillScore SkillId)) : ℚ :=
  ((taggedWith skill perQuestion).map fun question => marksOf question.score).sum

/-- The marks available over the questions tagged with a skill. -/
def totalAvailable (skill : SkillId) (perQuestion : List (QuestionSkillScore SkillId)) : ℚ :=
  ((taggedWith skill perQuestion).map fun question => marksOf question.maxScore).sum

/-- Every weight is above zero. -/
def PositiveWeights (weights : SkillWeights SkillId) : Prop :=
  ∀ entry ∈ weights, JsDouble.lt (.finite 0) entry.2 = true

section Totals

variable {first second : List (QuestionSkillScore SkillId)}

theorem totalScore_cons (skill : SkillId) (question : QuestionSkillScore SkillId)
    (rest : List (QuestionSkillScore SkillId)) :
    totalScore skill (question :: rest) =
      (if skill ∈ question.skillIds then marksOf question.score else 0) + totalScore skill rest := by
  unfold totalScore taggedWith
  by_cases tagged : skill ∈ question.skillIds
  · simp [tagged]
  · simp [tagged]

theorem totalAvailable_cons (skill : SkillId) (question : QuestionSkillScore SkillId)
    (rest : List (QuestionSkillScore SkillId)) :
    totalAvailable skill (question :: rest) =
      (if skill ∈ question.skillIds then marksOf question.maxScore else 0) +
        totalAvailable skill rest := by
  unfold totalAvailable taggedWith
  by_cases tagged : skill ∈ question.skillIds
  · simp [tagged]
  · simp [tagged]

theorem totalScore_perm (skill : SkillId) (reordered : first.Perm second) :
    totalScore skill first = totalScore skill second :=
  ((reordered.filter _).map _).sum_eq

theorem totalAvailable_perm (skill : SkillId) (reordered : first.Perm second) :
    totalAvailable skill first = totalAvailable skill second :=
  ((reordered.filter _).map _).sum_eq

end Totals

/-! ### What the loop refuses -/

section Accepted

variable {weights : SkillWeights SkillId}

/-- The weight consulted for a skill is finite and not negative. -/
def WeightAccepted (weights : SkillWeights SkillId) (skill : SkillId) : Prop :=
  ∃ weight : ℚ, (weights.lookup skill).getD (.finite 1) = .finite weight ∧ 0 ≤ weight

/-- A question in range, with a weight for each of its skills. -/
structure Accepted (weights : SkillWeights SkillId) (question : QuestionSkillScore SkillId) :
    Prop where
  inRange : InRange question
  weighed : ∀ skill ∈ question.skillIds, WeightAccepted weights skill

omit [DecidableEq SkillId] in
theorem assertFiniteInRange_eq_ok {value : JsDouble} {label : RangeLabel SkillId} {min number : ℚ}
    {max : Option ℚ} :
    assertFiniteInRange value label min max = .ok number ↔
      value = .finite number ∧ min ≤ number ∧ ∀ bound, max = some bound → number ≤ bound := by
  constructor
  · intro accepted
    cases value with
    | finite given =>
        rw [assertFiniteInRange] at accepted
        split at accepted
        · cases accepted
        · rename_i within
          cases accepted
          obtain ⟨low, high⟩ := not_or.mp within
          refine ⟨rfl, not_lt.mp low, ?_⟩
          intro bound same
          subst same
          simpa using high
    | infinite negative => cases accepted
    | nan => cases accepted
  · rintro ⟨rfl, low, high⟩
    exact assertFiniteInRange_ok label low high

theorem addSkill_eq_ok {score maxScore : ℚ} {tally next : Tally SkillId} {skill : SkillId} :
    addSkill weights score maxScore tally skill = .ok next ↔
      ∃ weight : ℚ, (weights.lookup skill).getD (.finite 1) = .finite weight ∧ 0 ≤ weight ∧
        next = ⟨setEntry tally.earned skill ((tally.earned.lookup skill).getD 0 + weight * score),
          setEntry tally.available skill
            ((tally.available.lookup skill).getD 0 + weight * maxScore)⟩ := by
  rw [addSkill, bind_eq_ok]
  constructor
  · rintro ⟨weight, accepted, added⟩
    obtain ⟨found, low, _⟩ := assertFiniteInRange_eq_ok.mp accepted
    cases added
    exact ⟨weight, found, low, rfl⟩
  · rintro ⟨weight, found, low, rfl⟩
    exact ⟨weight, assertFiniteInRange_eq_ok.mpr ⟨found, low, by simp⟩, rfl⟩

theorem addQuestion_eq_ok {tally next : Tally SkillId} {question : QuestionSkillScore SkillId} :
    addQuestion weights tally question = .ok next ↔
      InRange question ∧ (distinct question.skillIds).foldlM
        (addSkill weights (marksOf question.score) (marksOf question.maxScore)) tally = .ok next := by
  rw [addQuestion, bind_eq_ok]
  constructor
  · rintro ⟨maxScore, maximum, added⟩
    obtain ⟨score, scored, added⟩ := bind_eq_ok.mp added
    obtain ⟨maximum, _, _⟩ := assertFiniteInRange_eq_ok.mp maximum
    obtain ⟨scored, low, high⟩ := assertFiniteInRange_eq_ok.mp scored
    refine ⟨⟨score, maxScore, scored, maximum, low, high maxScore rfl⟩, ?_⟩
    rw [scored, maximum]
    exact added
  · rintro ⟨inRange, added⟩
    obtain ⟨score, maxScore, scored, maximum, low, high⟩ := inRange.bounds
    rw [scored, maximum] at added ⊢
    refine ⟨maxScore, assertFiniteInRange_ok _ (low.trans high) (by simp), ?_⟩
    rw [bind_eq_ok]
    refine ⟨score, assertFiniteInRange_ok _ low ?_, added⟩
    intro bound same
    cases same
    exact high

private theorem addQuestion_accepts {tally : Tally SkillId}
    {question : QuestionSkillScore SkillId} (accepted : Accepted weights question) :
    ∃ next, addQuestion weights tally question = .ok next := by
  have anySkill : ∀ (before : Tally SkillId) (skill : SkillId), True →
      WeightAccepted weights skill → ∃ after, addSkill weights (marksOf question.score)
        (marksOf question.maxScore) before skill = .ok after ∧ True := by
    rintro before skill _ ⟨weight, found, low⟩
    exact ⟨_, addSkill_eq_ok.mpr ⟨weight, found, low, rfl⟩, trivial⟩
  have weighed : ∀ skill ∈ distinct question.skillIds, WeightAccepted weights skill :=
    fun skill inside => accepted.weighed skill (mem_distinct.mp inside)
  obtain ⟨next, added, _⟩ := foldlM_ok anySkill weighed (trivial : (fun _ => True) tally)
  exact ⟨next, addQuestion_eq_ok.mpr ⟨accepted.inRange, added⟩⟩

private theorem accepted_of_addQuestion {tally next : Tally SkillId}
    {question : QuestionSkillScore SkillId} (added : addQuestion weights tally question = .ok next) :
    Accepted weights question := by
  obtain ⟨inRange, folded⟩ := addQuestion_eq_ok.mp added
  refine ⟨inRange, ?_⟩
  intro skill tagged
  have weighed : ∀ other ∈ distinct question.skillIds, WeightAccepted weights other := by
    refine foldlM_fit ?_ folded
    intro before other after one
    obtain ⟨weight, found, low, _⟩ := addSkill_eq_ok.mp one
    exact ⟨weight, found, low⟩
  exact weighed skill (mem_distinct.mpr tagged)

/-- The roll-up refuses exactly a question out of range and a weight out of range that one of the
questions asks for. -/
theorem rollUpSkillScores_accepts_iff {perQuestion : List (QuestionSkillScore SkillId)} :
    (∃ rolled, rollUpSkillScores perQuestion weights = .ok rolled) ↔
      ∀ question ∈ perQuestion, Accepted weights question := by
  constructor
  · rintro ⟨rolled, returned⟩
    rw [rollUpSkillScores] at returned
    obtain ⟨tally, folded, _⟩ := bind_eq_ok.mp returned
    exact foldlM_fit (fun _ _ _ added => accepted_of_addQuestion added) folded
  · intro accepted
    have anyQuestion : ∀ (before : Tally SkillId) (question : QuestionSkillScore SkillId), True →
        Accepted weights question →
        ∃ after, addQuestion weights before question = .ok after ∧ True := by
      intro before question _ fit
      obtain ⟨after, added⟩ := addQuestion_accepts fit
      exact ⟨after, added, trivial⟩
    have start : (fun _ => True) (⟨[], []⟩ : Tally SkillId) := trivial
    obtain ⟨tally, folded, _⟩ := foldlM_ok anyQuestion accepted start
    exact ⟨_, bind_eq_ok.mpr ⟨tally, folded, rfl⟩⟩

end Accepted

/-! ### What the loop adds up -/

section Grows

variable {weights : SkillWeights SkillId}

/-- The second tally holds the first, and for each skill so much more earned and available. -/
structure Grows (before after : Tally SkillId) (score maxScore : SkillId → ℚ) : Prop where
  distinctSkills : (before.available.map Prod.fst).Nodup → (after.available.map Prod.fst).Nodup
  earned : ∀ skill, (after.earned.lookup skill).getD 0 =
    (before.earned.lookup skill).getD 0 + score skill
  available : ∀ skill, (after.available.lookup skill).getD 0 =
    (before.available.lookup skill).getD 0 + maxScore skill

theorem Grows.refl (tally : Tally SkillId) : Grows tally tally (fun _ => 0) (fun _ => 0) :=
  ⟨id, fun _ => (add_zero _).symm, fun _ => (add_zero _).symm⟩

theorem Grows.trans {first second third : Tally SkillId} {score more maxScore moreMax : SkillId → ℚ}
    (one : Grows first second score maxScore) (other : Grows second third more moreMax) :
    Grows first third (fun skill => score skill + more skill)
      (fun skill => maxScore skill + moreMax skill) := by
  constructor
  · intro once
    exact other.distinctSkills (one.distinctSkills once)
  · intro skill
    rw [other.earned, one.earned, add_assoc]
  · intro skill
    rw [other.available, one.available, add_assoc]

/-- The number a skill's marks are multiplied by. One that is not finite is never used. -/
def weightOf (weights : SkillWeights SkillId) (skill : SkillId) : ℚ :=
  match (weights.lookup skill).getD (.finite 1) with
  | .finite weight => weight
  | _ => 1

theorem weightOf_pos (positive : PositiveWeights weights) (skill : SkillId) :
    0 < weightOf weights skill := by
  unfold weightOf
  cases found : weights.lookup skill with
  | none => exact one_pos
  | some value =>
      have above := positive (skill, value) (mem_of_lookup found)
      cases value with
      | finite weight => exact JsDouble.lt_finite.mp above
      | infinite negative => exact one_pos
      | nan => exact one_pos

theorem addSkill_grows {score maxScore : ℚ} {tally next : Tally SkillId} {skill : SkillId}
    (added : addSkill weights score maxScore tally skill = .ok next) :
    Grows tally next (fun other => if other = skill then weightOf weights other * score else 0)
      (fun other => if other = skill then weightOf weights other * maxScore else 0) := by
  obtain ⟨weight, found, _, rfl⟩ := addSkill_eq_ok.mp added
  have used : weightOf weights skill = weight := by
    unfold weightOf
    rw [found]
  constructor
  · intro once
    exact nodup_setEntry once _ _
  · intro other
    rw [lookup_setEntry]
    by_cases same : other = skill
    · subst same
      rw [if_pos rfl, if_pos rfl, used]
      rfl
    · rw [if_neg same, if_neg same, add_zero]
  · intro other
    rw [lookup_setEntry]
    by_cases same : other = skill
    · subst same
      rw [if_pos rfl, if_pos rfl, used]
      rfl
    · rw [if_neg same, if_neg same, add_zero]

private theorem addSkills_grows {score maxScore : ℚ} {skills : List SkillId} (once : skills.Nodup)
    {tally next : Tally SkillId}
    (added : skills.foldlM (addSkill weights score maxScore) tally = .ok next) :
    Grows tally next (fun other => if other ∈ skills then weightOf weights other * score else 0)
      (fun other => if other ∈ skills then weightOf weights other * maxScore else 0) := by
  induction skills generalizing tally with
  | nil =>
      cases added
      simpa using Grows.refl _
  | cons skill rest inductionHypothesis =>
      rw [List.nodup_cons] at once
      rw [List.foldlM_cons] at added
      obtain ⟨middle, first, later⟩ := bind_eq_ok.mp added
      have grown := (addSkill_grows first).trans (inductionHypothesis once.2 later)
      convert grown using 2 with other other
      · by_cases same : other = skill
        · subst same
          simp [once.1]
        · simp [same]
      · by_cases same : other = skill
        · subst same
          simp [once.1]
        · simp [same]

theorem addQuestion_grows {tally next : Tally SkillId} {question : QuestionSkillScore SkillId}
    (added : addQuestion weights tally question = .ok next) :
    Grows tally next
      (fun skill =>
        if skill ∈ question.skillIds then weightOf weights skill * marksOf question.score else 0)
      (fun skill =>
        if skill ∈ question.skillIds then weightOf weights skill * marksOf question.maxScore
        else 0) := by
  have grown := addSkills_grows (nodup_distinct _) (addQuestion_eq_ok.mp added).2
  simpa only [mem_distinct] using grown

/-- By induction on the questions: each skill holds its weight times the totals so far. -/
theorem addQuestions_grows {perQuestion : List (QuestionSkillScore SkillId)}
    {tally next : Tally SkillId}
    (added : perQuestion.foldlM (addQuestion weights) tally = .ok next) :
    Grows tally next (fun skill => weightOf weights skill * totalScore skill perQuestion)
      (fun skill => weightOf weights skill * totalAvailable skill perQuestion) := by
  induction perQuestion generalizing tally with
  | nil =>
      cases added
      simpa [totalScore, totalAvailable, taggedWith] using Grows.refl _
  | cons question rest inductionHypothesis =>
      rw [List.foldlM_cons] at added
      obtain ⟨middle, first, later⟩ := bind_eq_ok.mp added
      have grown := (addQuestion_grows first).trans (inductionHypothesis later)
      convert grown using 2 with skill skill
      · rw [totalScore_cons, mul_add, mul_ite, mul_zero]
      · rw [totalAvailable_cons, mul_add, mul_ite, mul_zero]

end Grows

/-! ### What is reported -/

/-- The proportion of a skill with marks available. -/
def reported (earned : List (SkillId × ℚ)) (skill : SkillId) (available : ℚ) : Option ℚ :=
  if available ≤ 0 then none
  else some (roundProportion ((earned.lookup skill).getD 0 / available))

theorem proportions_eq (tally : Tally SkillId) :
    proportions tally = tally.available.filterMap fun entry =>
      (reported tally.earned entry.1 entry.2).map (Prod.mk entry.1) := by
  unfold proportions reported
  congr 1
  funext entry
  split
  · rfl
  · rfl

theorem lookup_proportions {tally : Tally SkillId}
    (once : (tally.available.map Prod.fst).Nodup) (skill : SkillId) :
    (proportions tally).lookup skill =
      if 0 < (tally.available.lookup skill).getD 0 then
        some (roundProportion
          ((tally.earned.lookup skill).getD 0 / (tally.available.lookup skill).getD 0))
      else none := by
  rw [proportions_eq, lookup_filterMap once]
  cases found : tally.available.lookup skill with
  | none => rw [Option.bind_none, Option.getD_none, if_neg (lt_irrefl 0)]
  | some available =>
      rw [Option.bind_some, Option.getD_some, reported]
      by_cases worthless : available ≤ 0
      · rw [if_pos worthless, if_neg (not_lt.mpr worthless)]
      · rw [if_neg worthless, if_pos (not_le.mp worthless)]

/-- What a skill is given: the marks earned over the marks available, whatever the weights. -/
private theorem rollUp_lookup {perQuestion : List (QuestionSkillScore SkillId)}
    {weights : SkillWeights SkillId} {rolled : List (SkillId × ℚ)}
    (positive : PositiveWeights weights)
    (returned : rollUpSkillScores perQuestion weights = .ok rolled) :
    (rolled.map Prod.fst).Nodup ∧ ∀ skill, rolled.lookup skill =
      if 0 < totalAvailable skill perQuestion then
        some (roundProportion (totalScore skill perQuestion / totalAvailable skill perQuestion))
      else none := by
  rw [rollUpSkillScores] at returned
  obtain ⟨tally, folded, same⟩ := bind_eq_ok.mp returned
  cases same
  have grown := addQuestions_grows folded
  have once := grown.distinctSkills List.nodup_nil
  constructor
  · rw [proportions_eq]
    exact nodup_filterMap once _
  · intro skill
    have above := weightOf_pos positive skill
    have earned : (tally.earned.lookup skill).getD 0 =
        weightOf weights skill * totalScore skill perQuestion :=
      (grown.earned skill).trans (zero_add _)
    have available : (tally.available.lookup skill).getD 0 =
        weightOf weights skill * totalAvailable skill perQuestion :=
      (grown.available skill).trans (zero_add _)
    rw [lookup_proportions once, earned, available, mul_div_mul_left _ _ above.ne']
    simp only [mul_pos_iff_of_pos_left above]

/-- The marks earned are not more than those available, nor less than nothing. -/
private theorem totals_bounds {perQuestion : List (QuestionSkillScore SkillId)}
    (inRange : ∀ question ∈ perQuestion, InRange question) (skill : SkillId) :
    0 ≤ totalScore skill perQuestion ∧
      totalScore skill perQuestion ≤ totalAvailable skill perQuestion := by
  induction perQuestion with
  | nil => exact ⟨le_refl _, le_refl _⟩
  | cons question rest inductionHypothesis =>
      obtain ⟨score, maxScore, scored, maximum, low, high⟩ :=
        (inRange question List.mem_cons_self).bounds
      have later := inductionHypothesis fun other inside =>
        inRange other (List.mem_cons_of_mem _ inside)
      rw [totalScore_cons, totalAvailable_cons, scored, maximum]
      simp only [marksOf]
      split
      · constructor
        · linarith
        · linarith
      · simpa using later

/-- A skill is in the report when it reads as something. -/
private theorem reported_iff {rolled : List (SkillId × ℚ)} (once : (rolled.map Prod.fst).Nodup)
    {skill : SkillId} {available ratio : ℚ}
    (found : rolled.lookup skill = if 0 < available then some ratio else none) :
    skill ∈ rolled.map Prod.fst ↔ 0 < available := by
  constructor
  · intro inside
    obtain ⟨⟨_, value⟩, member, rfl⟩ := List.mem_map.mp inside
    rw [lookup_of_mem once member] at found
    by_contra nothing
    rw [if_neg nothing] at found
    cases found
  · intro above
    rw [if_pos above] at found
    exact List.mem_map.mpr ⟨_, mem_of_lookup found, rfl⟩

omit [DecidableEq SkillId] in
private theorem positive_accepted [BEq SkillId] [LawfulBEq SkillId] {weights : SkillWeights SkillId}
    (positive : PositiveWeights weights) (finite : ∀ entry ∈ weights, entry.2.isFinite = true)
    (skill : SkillId) :
    ∃ weight : ℚ, (weights.lookup skill).getD (.finite 1) = .finite weight ∧ 0 ≤ weight := by
  cases found : weights.lookup skill with
  | none => exact ⟨1, rfl, zero_le_one⟩
  | some value =>
      have member := mem_of_lookup found
      obtain ⟨weight, same⟩ := JsDouble.isFinite_iff.mp (finite _ member)
      have above := positive _ member
      change value = .finite weight at same
      subst same
      exact ⟨weight, rfl, (JsDouble.lt_finite.mp above).le⟩

/-- The roll-up gives each skill, once, the marks earned over the marks available among the
questions tagged with it, rounded once, and no skill without marks available; each is a proportion.
Neither the order of the questions nor the positive weights change any of it. -/
theorem rollUpSkillScores_ratio {perQuestion : List (QuestionSkillScore SkillId)}
    {weights : SkillWeights SkillId} {rolled : List (SkillId × ℚ)}
    (positive : PositiveWeights weights)
    (returned : rollUpSkillScores perQuestion weights = .ok rolled) :
    (rolled.map Prod.fst).Nodup ∧
    (∀ skill, rolled.lookup skill =
      if 0 < totalAvailable skill perQuestion then
        some (roundProportion (totalScore skill perQuestion / totalAvailable skill perQuestion))
      else none) ∧
    (∀ skill, skill ∈ rolled.map Prod.fst ↔ 0 < totalAvailable skill perQuestion) ∧
    (∀ entry ∈ rolled, 0 ≤ entry.2 ∧ entry.2 ≤ 1) ∧
    (∀ order, perQuestion.Perm order →
      ∃ reordered, rollUpSkillScores order weights = .ok reordered ∧
        ∀ skill, reordered.lookup skill = rolled.lookup skill) ∧
    (∀ others : SkillWeights SkillId, PositiveWeights others →
      ∀ other, rollUpSkillScores perQuestion others = .ok other →
        ∀ skill, other.lookup skill = rolled.lookup skill) ∧
    ∀ others : SkillWeights SkillId, PositiveWeights others →
      (∀ entry ∈ others, entry.2.isFinite = true) →
      ∃ other, rollUpSkillScores perQuestion others = .ok other := by
  obtain ⟨once, ratio⟩ := rollUp_lookup positive returned
  have accepted := rollUpSkillScores_accepts_iff.mp ⟨rolled, returned⟩
  have inRange : ∀ question ∈ perQuestion, InRange question :=
    fun question inside => (accepted question inside).inRange
  refine ⟨once, ratio, ?_, ?_, ?_, ?_, ?_⟩
  · intro skill
    exact reported_iff once (ratio skill)
  · intro entry inside
    have found := (ratio entry.1).symm.trans (lookup_of_mem once inside)
    split at found
    · rename_i above
      have bounds := totals_bounds inRange entry.1
      rw [← Option.some.inj found]
      constructor
      · exact le_toFixed (onGrid_zero _) (div_nonneg bounds.1 above.le)
      · exact toFixed_le (onGrid_one _) ((div_le_one above).mpr bounds.2)
    · cases found
  · intro order same
    obtain ⟨reordered, run⟩ := rollUpSkillScores_accepts_iff.mpr fun question inside =>
      accepted question (same.mem_iff.mpr inside)
    refine ⟨reordered, run, ?_⟩
    intro skill
    rw [(rollUp_lookup positive run).2, ratio, totalScore_perm skill same,
      totalAvailable_perm skill same]
  · intro others alsoPositive other run skill
    rw [(rollUp_lookup alsoPositive run).2, ratio]
  · intro others alsoPositive finite
    apply rollUpSkillScores_accepts_iff.mpr
    intro question inside
    refine ⟨inRange question inside, ?_⟩
    intro skill tagged
    exact positive_accepted alsoPositive finite skill

/-- Two questions, one tagged twice with the same skill and worth nothing to the other. -/
def gradedQuestions : List (QuestionSkillScore Nat) :=
  [⟨[1, 2, 1], .finite 3, .finite 4⟩, ⟨[2], .finite 1, .finite 3⟩, ⟨[3], .finite 0, .finite 0⟩]

theorem rollUpSkillScores_ratio_example :
    ([(1, (3 / 4 : ℚ)), (2, 571429 / 1000000)] : List (Nat × ℚ)).lookup 2 =
      if 0 < totalAvailable 2 gradedQuestions then
        some (roundProportion (totalScore 2 gradedQuestions / totalAvailable 2 gradedQuestions))
      else none := by
  have positive : PositiveWeights [(2, JsDouble.finite 5)] := by
    intro entry inside
    cases List.mem_singleton.mp inside
    rfl
  have returned : rollUpSkillScores gradedQuestions [(2, .finite 5)] =
      .ok [(1, 3 / 4), (2, 571429 / 1000000)] := by decide +kernel
  exact (rollUpSkillScores_ratio positive returned).2.1 2

end Assaybank.Domain
