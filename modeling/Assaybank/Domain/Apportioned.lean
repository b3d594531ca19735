import Assaybank.Domain.Compose
import Assaybank.Library.LargestRemainder
import Mathlib.Algebra.BigOperators.Fin

/-!
Owns the proportions of a composed paper (`packages/core-domain/src/compose.ts`), in exact
arithmetic.

Contract: the allocation is an apportionment by largest remainder (`allocateByWeight_eq_share`). So a
composition holds one rule for each required skill, in the role's order, which share the questions
beyond the first in proportion to the weights, and each of which is valid when the role's bands and
the window are (`composition_proportional`).
-/

namespace Assaybank.Domain

open Assaybank.Runtime Assaybank.Library Assaybank.Contracts

/-! ### The loop over the order -/

/-- The loop gives one more to the first of the order, as many as remain. -/
theorem foldl_handOut (order : List Nat) (out : List Int) (remaining : Int) :
    (order.foldl handOut (out, remaining)).1 =
      (order.take remaining.toNat).foldl (fun out index => out.modify index (· + 1)) out := by
  induction order generalizing out remaining with
  | nil => rw [List.take_nil]; rfl
  | cons index rest inductionHypothesis =>
      rw [List.foldl_cons, handOut]
      by_cases nothing : remaining ≤ 0
      · have none : remaining.toNat = 0 := by omega
        have stays := inductionHypothesis out remaining
        rw [none, List.take_zero] at stays ⊢
        rw [if_pos nothing]
        exact stays
      · obtain ⟨less, more⟩ : ∃ less, remaining.toNat = less + 1 := ⟨remaining.toNat - 1, by omega⟩
        have later : (remaining - 1).toNat = less := by omega
        rw [if_neg nothing, inductionHypothesis, later, more, List.take_succ_cons, List.foldl_cons]

private theorem getElem?_foldl_modify {order : List Nat} (distinct : order.Nodup) (out : List Int)
    (i : Nat) : (order.foldl (fun out index => out.modify index (· + 1)) out)[i]? =
      out[i]?.map fun value => value + if i ∈ order then 1 else 0 := by
  induction order generalizing out with
  | nil => simp
  | cons index rest inductionHypothesis =>
      rw [List.nodup_cons] at distinct
      rw [List.foldl_cons, inductionHypothesis distinct.2, List.getElem?_modify]
      by_cases here : index = i
      · subst here
        cases out[index]? <;> simp [distinct.1]
      · cases out[i]? <;> simp [here, Ne.symm here]

/-! ### The order of the remainders -/

instance : Std.Total comesFirst where
  total a b := by
    unfold comesFirst
    split_ifs with same other
    · exact le_total _ _
    · exact absurd same.symm other
    · rename_i back
      exact absurd back.symm same
    · exact (lt_or_gt_of_ne same)

instance : IsTrans (Nat × ℚ) comesFirst where
  trans a b c first second := by
    unfold comesFirst at *
    split_ifs at first second ⊢ with one two three
    all_goals first | omega | linarith | grind

/-- An entry that comes first was rounded down at least as hard. -/
theorem le_of_comesFirst {a b : Nat × ℚ} (first : comesFirst a b) : b.2 ≤ a.2 := by
  unfold comesFirst at first
  split_ifs at first with same
  · exact same.le
  · exact first.le

section Allocation

variable (total : Int) (weights : List ℚ)

/-- The share of `total` that a weight would have, were it not rounded. -/
def quota (i : Fin weights.length) : ℚ := weights.get i / weights.sum * total

def exactShares : List ℚ := weights.map fun weight => weight / weights.sum * total

def handingOrder : List (Nat × ℚ) :=
  ((exactShares total weights).zipIdx.map fun (value, index) =>
    (index, value - (⌊value⌋ : ℚ))).insertionSort comesFirst

/-- How many are left when every share is rounded down. -/
def leftOver : Nat := (total - ((exactShares total weights).map Int.floor).sum).toNat

/-- Those that get one more. -/
def firstServed : Finset (Fin weights.length) :=
  Finset.univ.filter fun i =>
    i.val ∈ ((handingOrder total weights).take (leftOver total weights)).map Prod.fst

variable {total weights}

theorem mem_handingOrder {entry : Nat × ℚ} : entry ∈ handingOrder total weights ↔
    ∃ present : entry.1 < weights.length,
      entry.2 = Int.fract (quota total weights ⟨entry.1, present⟩) := by
  unfold handingOrder
  rw [List.mem_insertionSort, List.mem_map]
  constructor
  · rintro ⟨⟨value, index⟩, inside, rfl⟩
    have found : (exactShares total weights)[index]? = some value :=
      List.mem_zipIdx_iff_getElem?.mp inside
    unfold exactShares at found
    rw [List.getElem?_map, Option.map_eq_some_iff] at found
    obtain ⟨weight, there, same⟩ := found
    obtain ⟨present, here⟩ := List.getElem?_eq_some_iff.mp there
    have exact : quota total weights ⟨index, present⟩ = value := by
      unfold quota
      rw [List.get_eq_getElem, here]
      exact same
    refine ⟨present, ?_⟩
    rw [exact]
    rfl
  · rintro ⟨present, same⟩
    refine ⟨(quota total weights ⟨entry.1, present⟩, entry.1), ?_, ?_⟩
    · rw [List.mem_zipIdx_iff_getElem?]
      unfold exactShares
      rw [List.getElem?_map, List.getElem?_eq_getElem present]
      rfl
    · exact Prod.ext rfl same.symm

theorem handingOrder_indices :
    ((handingOrder total weights).map Prod.fst).Perm (List.range weights.length) := by
  unfold handingOrder
  refine ((List.perm_insertionSort comesFirst _).map Prod.fst).trans ?_
  rw [List.map_map]
  show ((exactShares total weights).zipIdx.map Prod.snd).Perm _
  have count : (exactShares total weights).length = weights.length := List.length_map _
  rw [List.zipIdx_map_snd, count, ← List.range_eq_range']

variable (total weights) in
theorem nodup_served :
    (((handingOrder total weights).take (leftOver total weights)).map Prod.fst).Nodup := by
  have whole : ((handingOrder total weights).map Prod.fst).Nodup :=
    handingOrder_indices.nodup_iff.mpr List.nodup_range
  exact whole.sublist ((List.take_sublist _ _).map _)

/-! ### The allocation -/

theorem exactShares_eq : exactShares total weights = List.ofFn (quota total weights) := by
  unfold exactShares
  apply List.ext_getElem
  · rw [List.length_map, List.length_ofFn]
  · intro k present there
    rw [List.getElem_map, List.getElem_ofFn]
    rfl

theorem sum_quota (positive : 0 < weights.sum) : ∑ i, quota total weights i = total := by
  calc
    ∑ i, quota total weights i = ∑ i, weights.get i * (total / weights.sum) :=
      Finset.sum_congr rfl fun i _ => by
        unfold quota
        rw [div_mul_eq_mul_div, mul_div_assoc]
    _ = weights.sum * (total / weights.sum) := by
        rw [← Finset.sum_mul]
        congr 1
        exact Fin.sum_univ_getElem weights
    _ = total := mul_div_cancel₀ _ positive.ne'

theorem leftOver_eq (positive : 0 < weights.sum) :
    (leftOver total weights : ℚ) = ∑ i, Int.fract (quota total weights i) := by
  have floors : ((exactShares total weights).map Int.floor).sum =
      ∑ i, ⌊quota total weights i⌋ := by
    rw [exactShares_eq, List.map_ofFn, List.sum_ofFn]
    rfl
  have remainders : ∑ i, Int.fract (quota total weights i) =
      ((total - ∑ i, ⌊quota total weights i⌋ : Int) : ℚ) := by
    unfold Int.fract
    rw [Finset.sum_sub_distrib, sum_quota positive]
    push_cast
    rfl
  have nonnegative : (0 : ℚ) ≤ ∑ i, Int.fract (quota total weights i) :=
    Finset.sum_nonneg fun i _ => Int.fract_nonneg _
  rw [remainders] at nonnegative
  have whole : 0 ≤ total - ∑ i, ⌊quota total weights i⌋ := by exact_mod_cast nonnegative
  rw [remainders, leftOver, floors, ← Int.cast_natCast, Int.toNat_of_nonneg whole]

theorem leftOver_le (positive : 0 < weights.sum) : leftOver total weights ≤ weights.length := by
  have most : ∑ i, Int.fract (quota total weights i) ≤ ∑ _i : Fin weights.length, (1 : ℚ) :=
    Finset.sum_le_sum fun i _ => (Int.fract_lt_one _).le
  rw [← leftOver_eq positive, Finset.sum_const, Finset.card_univ, Fintype.card_fin, nsmul_eq_mul,
    mul_one] at most
  exact_mod_cast most

/-- Those that get one more have the largest remainders, and are as many as are left. -/
theorem largestRemainder_firstServed (positive : 0 < weights.sum) :
    LargestRemainder (quota total weights) (firstServed total weights) where
  count := by
    have image : (firstServed total weights).map Fin.valEmbedding =
        (((handingOrder total weights).take (leftOver total weights)).map Prod.fst).toFinset := by
      ext index
      rw [Finset.mem_map, List.mem_toFinset]
      constructor
      · rintro ⟨i, inside, rfl⟩
        exact (Finset.mem_filter.mp inside).2
      · intro inside
        obtain ⟨entry, member, rfl⟩ := List.mem_map.mp inside
        obtain ⟨present, -⟩ := mem_handingOrder.mp (List.mem_of_mem_take member)
        exact ⟨⟨entry.1, present⟩, Finset.mem_filter.mpr ⟨Finset.mem_univ _, inside⟩, rfl⟩
    have length : (handingOrder total weights).length = weights.length := by
      rw [← List.length_map Prod.fst, handingOrder_indices.length_eq, List.length_range]
    rw [← Finset.card_map, image, List.toFinset_card_of_nodup (nodup_served total weights),
      List.length_map, List.length_take, length, Nat.min_eq_left (leftOver_le positive),
      leftOver_eq positive]
  largest := by
    intro i inside j absent
    obtain ⟨first, firstServed, firstIndex⟩ :=
      List.mem_map.mp (Finset.mem_filter.mp inside).2
    have later : (j.val, Int.fract (quota total weights j)) ∈
        (handingOrder total weights).drop (leftOver total weights) := by
      have member : (j.val, Int.fract (quota total weights j)) ∈ handingOrder total weights :=
        mem_handingOrder.mpr ⟨j.isLt, rfl⟩
      rw [← List.take_append_drop (leftOver total weights) (handingOrder total weights),
        List.mem_append] at member
      apply member.resolve_left
      intro served
      exact absent (Finset.mem_filter.mpr ⟨Finset.mem_univ j, List.mem_map_of_mem served⟩)
    have sorted : (handingOrder total weights).Pairwise comesFirst :=
      List.pairwise_insertionSort comesFirst _
    rw [← List.take_append_drop (leftOver total weights) (handingOrder total weights),
      List.pairwise_append] at sorted
    have ordered := le_of_comesFirst (sorted.2.2 first firstServed _ later)
    obtain ⟨present, remainder⟩ := mem_handingOrder.mp (List.mem_of_mem_take firstServed)
    have same : (⟨first.1, present⟩ : Fin weights.length) = i := Fin.ext firstIndex
    rw [remainder, same] at ordered
    exact ordered

/-- The allocation gives every weight its share by largest remainder. -/
theorem allocateByWeight_eq_share (positive : 0 < weights.sum) :
    allocateByWeight total weights =
      List.ofFn (share (quota total weights) (firstServed total weights)) := by
  have loop : allocateByWeight total weights =
      (((handingOrder total weights).map Prod.fst).foldl handOut
        ((exactShares total weights).map Int.floor,
          total - ((exactShares total weights).map Int.floor).sum)).1 :=
    if_neg (not_le.mpr positive)
  rw [loop, foldl_handOut, ← List.map_take]
  apply List.ext_getElem?
  intro k
  rw [← leftOver, getElem?_foldl_modify (nodup_served total weights), exactShares_eq, List.map_ofFn,
    List.getElem?_ofFn, List.getElem?_ofFn]
  by_cases present : k < weights.length
  · rw [dif_pos present, dif_pos present]
    simp [share, firstServed]
  · rw [dif_neg present, dif_neg present]
    rfl

end Allocation

/-! ### The composition -/

section Composition

variable {skills : List RoleSkill} {options : ComposeOptions} {composition : Composition}

/-- The skills that a paper is composed for. -/
def requiredSkills (skills : List RoleSkill) : List RoleSkill := skills.filter RoleSkill.isRequired

def requiredWeights (skills : List RoleSkill) : List ℚ :=
  (requiredSkills skills).map fun skill => skill.weight.toRat

/-- The questions beyond the first of each required skill. -/
def spare (skills : List RoleSkill) (options : ComposeOptions) : Int :=
  options.questionCount - (requiredSkills skills).length

theorem composeFromRole_ok (composed : composeFromRole skills options = .ok composition) :
    requiredSkills skills ≠ [] ∧ 0 ≤ spare skills options ∧
      (∀ skill ∈ requiredSkills skills, 0 < skill.weight.toRat) ∧
      composition.rules = (requiredSkills skills).zipIdx.map fun (skill, index) =>
        composedRule options skill
          ((allocateByWeight (spare skills options) (requiredWeights skills))[index]?.getD 0) := by
  unfold composeFromRole at composed
  dsimp only at composed
  split_ifs at composed with empty negative few weightless
  cases composed
  refine ⟨fun none => empty (List.length_eq_zero_iff.mpr none), ?_, ?_, ?_⟩
  · unfold spare requiredSkills
    omega
  · intro skill inside
    by_contra light
    apply weightless
    rw [List.any_eq_true]
    refine ⟨skill, inside, decide_eq_true ?_⟩
    have zero : (0 : Decimal).toRat = 0 := by
      show (Decimal.ofInt 0).toRat = 0
      rw [Decimal.toRat_ofInt, Int.cast_zero]
    rw [Decimal.le_iff_toRat, zero]
    exact not_lt.mp light
  · exact List.append_nil _

theorem requiredWeights_sum_pos (composed : composeFromRole skills options = .ok composition) :
    0 < (requiredWeights skills).sum := by
  obtain ⟨filled, -, heavy, -⟩ := composeFromRole_ok composed
  apply List.sum_pos
  · intro weight inside
    obtain ⟨skill, member, rfl⟩ := List.mem_map.mp inside
    exact heavy skill member
  · intro none
    exact filled (List.map_eq_nil_iff.mp none)

/-- The share that a required skill gets of the spare questions. -/
def extraShare (skills : List RoleSkill) (options : ComposeOptions)
    (i : Fin (requiredWeights skills).length) : Int :=
  share (quota (spare skills options) (requiredWeights skills))
    (firstServed (spare skills options) (requiredWeights skills)) i

/-- The rules of a composition, each with its share. -/
theorem rules_eq (composed : composeFromRole skills options = .ok composition) :
    composition.rules = List.ofFn fun i : Fin (requiredWeights skills).length =>
      composedRule options ((requiredSkills skills).get (i.cast (List.length_map _)))
        (extraShare skills options i) := by
  obtain ⟨-, -, -, rules⟩ := composeFromRole_ok composed
  rw [rules, allocateByWeight_eq_share (requiredWeights_sum_pos composed)]
  have count : (requiredWeights skills).length = (requiredSkills skills).length := List.length_map _
  apply List.ext_getElem
  · rw [List.length_map, List.length_zipIdx, List.length_ofFn, count]
  · intro k present there
    rw [List.getElem_map, List.getElem_zipIdx, List.getElem_ofFn]
    have inside : k < (requiredWeights skills).length := by
      rw [List.length_ofFn] at there
      exact there
    simp only [Nat.zero_add, List.getElem?_ofFn, inside, dif_pos, Option.getD_some]
    rfl

/-- A band that lies on the scale. -/
def ProperBand (skill : RoleSkill) : Prop :=
  MIN_DIFFICULTY ≤ skill.minDifficulty.getD 1 ∧
    skill.minDifficulty.getD 1 ≤ skill.maxDifficulty.getD 5 ∧
    skill.maxDifficulty.getD 5 ≤ MAX_DIFFICULTY

instance (skill : RoleSkill) : Decidable (ProperBand skill) :=
  inferInstanceAs (Decidable (_ ∧ _ ∧ _))

theorem validateRule_composedRule {skill : RoleSkill} (band : ProperBand skill)
    (window : 0 ≤ options.excludeSeenDays.getD 0) {extra : Int} (nonnegative : 0 ≤ extra) :
    validateRule (composedRule options skill extra).toSectionRule = none := by
  obtain ⟨low, ordered, high⟩ := band
  refine validateRule_iff.mpr ⟨?_, ⟨low, ordered, high⟩, window, ?_⟩
  · show 0 < 1 + extra
    omega
  · show (0 : Decimal) ≤ .ofInt SCORE_PER_QUESTION
    decide +kernel

theorem extraShare_nonneg (composed : composeFromRole skills options = .ok composition)
    (i : Fin (requiredWeights skills).length) : 0 ≤ extraShare skills options i := by
  obtain ⟨-, enough, heavy, -⟩ := composeFromRole_ok composed
  apply le_trans _ (LargestRemainder.le_share _ _ i)
  apply Int.floor_nonneg.mpr
  unfold quota
  have weight : 0 ≤ (requiredWeights skills).get i := by
    obtain ⟨skill, member, same⟩ := List.mem_map.mp (List.get_mem (requiredWeights skills) i)
    rw [← same]
    exact (heavy skill member).le
  apply mul_nonneg
  · exact div_nonneg weight (requiredWeights_sum_pos composed).le
  · exact_mod_cast enough

/-- The questions beyond the first are apportioned by largest remainder. -/
theorem spare_rounding (composed : composeFromRole skills options = .ok composition) :
    LargestRemainder (quota (spare skills options) (requiredWeights skills))
      (firstServed (spare skills options) (requiredWeights skills)) :=
  largestRemainder_firstServed (requiredWeights_sum_pos composed)

theorem extraShare_mono (composed : composeFromRole skills options = .ok composition)
    {i j : Fin (requiredWeights skills).length}
    (lighter : (requiredWeights skills).get i < (requiredWeights skills).get j) :
    extraShare skills options i ≤ extraShare skills options j := by
  obtain ⟨-, enough, -, -⟩ := composeFromRole_ok composed
  have positive := requiredWeights_sum_pos composed
  have rounding := spare_rounding composed
  rcases enough.eq_or_lt with none | some
  · -- with nothing to spare every quota is zero, and nothing is rounded
    have zero : ∀ k, quota (spare skills options) (requiredWeights skills) k = 0 := by
      intro k
      unfold quota
      rw [← none, Int.cast_zero, mul_zero]
    have unserved : ∀ k, k ∉ firstServed (spare skills options) (requiredWeights skills) := by
      intro k inside
      have above := rounding.fract_pos inside
      rw [zero, Int.fract_zero] at above
      exact lt_irrefl _ above
    unfold extraShare share
    rw [if_neg (unserved i), if_neg (unserved j), zero, zero]
  · apply rounding.share_mono
    unfold quota
    apply mul_lt_mul_of_pos_right (div_lt_div_of_pos_right lighter positive)
    exact_mod_cast some

/-- A required skill and the rule in its place. -/
def RuleOf (skills : List RoleSkill) (composition : Composition) (skill : RoleSkill)
    (rule : ComposedRule) : Prop :=
  ∃ i : Nat, (requiredSkills skills)[i]? = some skill ∧ composition.rules[i]? = some rule

/-- The rule of a required skill carries its share. -/
theorem rule_of (composed : composeFromRole skills options = .ok composition) {skill : RoleSkill}
    {rule : ComposedRule} (own : RuleOf skills composition skill rule) :
    ∃ i, rule = composedRule options skill (extraShare skills options i) ∧
      (requiredWeights skills).get i = skill.weight.toRat := by
  obtain ⟨i, required, composedHere⟩ := own
  obtain ⟨inside, here⟩ := List.getElem?_eq_some_iff.mp required
  have present : i < (requiredWeights skills).length := by
    unfold requiredWeights
    rw [List.length_map]
    exact inside
  rw [rules_eq composed, List.getElem?_ofFn, dif_pos present, Option.some.injEq] at composedHere
  refine ⟨⟨i, present⟩, ?_, ?_⟩
  · rw [← composedHere, ← here]
    rfl
  · rw [List.get_eq_getElem, ← here]
    exact List.getElem_map _

/-- There is one rule for each required skill, in the role's order. -/
private theorem rules_named (composed : composeFromRole skills options = .ok composition) :
    (composition.rules.map fun rule => (rule.skillName, rule.skillIds)) =
      ((requiredSkills skills).map fun skill => (skill.skillName, [skill.skillId])) := by
  obtain ⟨-, -, -, rules⟩ := composeFromRole_ok composed
  rw [rules, List.map_map]
  apply List.ext_getElem
  · rw [List.length_map, List.length_map, List.length_zipIdx]
  · intro k present there
    rw [List.getElem_map, List.getElem_zipIdx, List.getElem_map]
    rfl

private theorem rule_composed (composed : composeFromRole skills options = .ok composition)
    {rule : ComposedRule} (inside : rule ∈ composition.rules) :
    ∃ skill ∈ requiredSkills skills, ∃ i,
      rule = composedRule options skill (extraShare skills options i) := by
  rw [rules_eq composed, List.mem_ofFn] at inside
  obtain ⟨i, rfl⟩ := inside
  exact ⟨_, List.get_mem _ _, i, rfl⟩

/-- As many questions are picked as asked: the first ones, and the shares of the rest. -/
private theorem composed_sum (composed : composeFromRole skills options = .ok composition) :
    (composition.rules.map fun rule => rule.pickCount).sum = options.questionCount := by
  have count : (requiredWeights skills).length = (requiredSkills skills).length := List.length_map _
  have total : ∑ i, extraShare skills options i = spare skills options := by
    have sum := (spare_rounding composed).sum_share
    rw [sum_quota (requiredWeights_sum_pos composed)] at sum
    exact_mod_cast sum
  rw [rules_eq composed, List.map_ofFn, List.sum_ofFn]
  show ∑ i, (1 + extraShare skills options i) = _
  rw [Finset.sum_add_distrib, total, Finset.sum_const, Finset.card_univ, Fintype.card_fin, count,
    nsmul_eq_mul, mul_one, spare]
  ring

private theorem composed_pos (composed : composeFromRole skills options = .ok composition)
    {rule : ComposedRule} (inside : rule ∈ composition.rules) : 1 ≤ rule.pickCount := by
  obtain ⟨skill, -, i, rfl⟩ := rule_composed composed inside
  show 1 ≤ 1 + extraShare skills options i
  have nonnegative := extraShare_nonneg composed i
  omega

private theorem composed_near (composed : composeFromRole skills options = .ok composition)
    {skill : RoleSkill} {rule : ComposedRule} (own : RuleOf skills composition skill rule) :
    |((rule.pickCount - 1 : Int) : ℚ) -
      skill.weight.toRat / (requiredWeights skills).sum * spare skills options| < 1 := by
  obtain ⟨i, rfl, weight⟩ := rule_of composed own
  have near := (spare_rounding composed).abs_share_sub_lt i
  unfold quota at near
  rw [weight] at near
  have extra : (composedRule options skill (extraShare skills options i)).pickCount - 1 =
      extraShare skills options i := add_sub_cancel_left _ _
  rw [extra]
  exact near

private theorem composed_mono (composed : composeFromRole skills options = .ok composition)
    {light heavy : RoleSkill} {lightRule heavyRule : ComposedRule}
    (lightOwn : RuleOf skills composition light lightRule)
    (heavyOwn : RuleOf skills composition heavy heavyRule)
    (lighter : light.weight.toRat < heavy.weight.toRat) :
    lightRule.pickCount ≤ heavyRule.pickCount := by
  obtain ⟨i, rfl, weight⟩ := rule_of composed lightOwn
  obtain ⟨j, rfl, heavyWeight⟩ := rule_of composed heavyOwn
  have fewer : extraShare skills options i ≤ extraShare skills options j := by
    apply extraShare_mono composed
    rw [weight, heavyWeight]
    exact lighter
  exact add_le_add_right fewer 1

/-- A composition is in proportion: one rule for each required skill in the role's order, at least
one question each and as many in all as asked; beyond the first, less than one from what the weight
comes to, and no fewer for a larger weight; and every rule is valid when the bands and the window
are. -/
theorem composition_proportional (composed : composeFromRole skills options = .ok composition) :
    (composition.rules.map fun rule => (rule.skillName, rule.skillIds)) =
        ((requiredSkills skills).map fun skill => (skill.skillName, [skill.skillId])) ∧
      (composition.rules.map fun rule => rule.pickCount).sum = options.questionCount ∧
      (∀ rule ∈ composition.rules, 1 ≤ rule.pickCount) ∧
      (∀ skill rule, RuleOf skills composition skill rule →
        |((rule.pickCount - 1 : Int) : ℚ) -
          skill.weight.toRat / (requiredWeights skills).sum * spare skills options| < 1) ∧
      (∀ light heavy lightRule heavyRule, RuleOf skills composition light lightRule →
        RuleOf skills composition heavy heavyRule → light.weight.toRat < heavy.weight.toRat →
        lightRule.pickCount ≤ heavyRule.pickCount) ∧
      ((∀ skill ∈ requiredSkills skills, ProperBand skill) →
        0 ≤ options.excludeSeenDays.getD 0 →
        ∀ rule ∈ composition.rules, validateRule rule.toSectionRule = none) := by
  refine ⟨rules_named composed, composed_sum composed, ?_, ?_, ?_, ?_⟩
  · intro rule inside
    exact composed_pos composed inside
  · intro skill rule own
    exact composed_near composed own
  · intro light heavy lightRule heavyRule lightOwn heavyOwn lighter
    exact composed_mono composed lightOwn heavyOwn lighter
  · intro bands window rule inside
    obtain ⟨skill, member, i, rfl⟩ := rule_composed composed inside
    exact validateRule_composedRule (bands skill member) window (extraShare_nonneg composed i)

end Composition

/-! ### A paper of ten questions -/

/-- A skill without a band. -/
def plainSkill (name : String) (weight : Decimal) : RoleSkill :=
  ⟨js name, js name, weight, none, none, true⟩

/-- Ten questions for Python at twice the weight of SQL, and an optional skill. -/
def sampleRole : List RoleSkill :=
  [plainSkill "python" 2, plainSkill "sql" 1, { plainSkill "css" 5 with isRequired := false }]

theorem composition_proportional_example :
    ∃ composition, composeFromRole sampleRole ⟨10, none, none⟩ = .ok composition ∧
      (composition.rules.map fun rule => rule.pickCount).sum = 10 ∧
      ∀ rule ∈ composition.rules, validateRule rule.toSectionRule = none := by
  obtain ⟨composition, composed⟩ : ∃ composition,
      composeFromRole sampleRole ⟨10, none, none⟩ = .ok composition := by
    have accepted : (composeFromRole sampleRole ⟨10, none, none⟩).isOk = true := by decide +kernel
    cases outcome : composeFromRole sampleRole ⟨10, none, none⟩ with
    | ok composition => exact ⟨composition, rfl⟩
    | error refusal =>
        rw [outcome] at accepted
        cases accepted
  obtain ⟨-, total, -, -, -, valid⟩ := composition_proportional composed
  exact ⟨composition, composed, total, valid (by decide +kernel) (by decide)⟩

end Assaybank.Domain
