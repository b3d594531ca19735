import Assaybank.Domain.Draw
import Mathlib.Data.List.Sort

/-!
Owns the composition of section rules from a role (`packages/core-domain/src/compose.ts`), in exact
arithmetic.

Contract: every rule of a composition is one of a required skill, under the skill's own band
(`mem_composeFromRole`). It does not ask what the bank holds.
-/

namespace Assaybank.Domain

open Assaybank.Runtime Assaybank.Contracts

/-- A role's skill. A missing bound is the end of the scale. -/
structure RoleSkill where
  skillId : SkillId
  skillName : JsString
  weight : Decimal
  minDifficulty : Option Int
  maxDifficulty : Option Int
  isRequired : Bool
deriving DecidableEq

structure ComposeOptions where
  questionCount : Int
  kinds : Option (List QuestionKind)
  excludeSeenDays : Option Int

structure ComposedRule extends SectionRule where
  skillName : JsString
deriving DecidableEq

structure ComposedSection where
  name : JsString
  rules : List ComposedRule
deriving DecidableEq

structure Composition where
  sections : List ComposedSection
  questionCount : Int
  totalScore : Int
deriving DecidableEq

/-- The rules of every section, in order. -/
def Composition.rules (composition : Composition) : List ComposedRule :=
  composition.sections.flatMap ComposedSection.rules

def SCORE_PER_QUESTION : Int := 1

/-- Whoever was rounded down hardest comes first, and of two the earlier. -/
def comesFirst (a b : Nat × ℚ) : Prop := if b.2 = a.2 then a.1 ≤ b.1 else b.2 < a.2

instance : DecidableRel comesFirst := fun a b =>
  inferInstanceAs (Decidable (if b.2 = a.2 then a.1 ≤ b.1 else b.2 < a.2))

/-- The loop over `order`: one more for each, until nothing remains. -/
def handOut (state : List Int × Int) (index : Nat) : List Int × Int :=
  if state.2 ≤ 0 then state else (state.1.modify index (· + 1), state.2 - 1)

/-- Shares of `total` in proportion to the weights, by largest remainder. -/
def allocateByWeight (total : Int) (weights : List ℚ) : List Int :=
  let sum := weights.sum
  if sum ≤ 0 then weights.map fun _ => 0
  else
    let exact := weights.map fun weight => weight / sum * total
    let floors := exact.map Int.floor
    let remaining := total - floors.sum
    let remainders := exact.zipIdx.map fun (value, index) => (index, value - (⌊value⌋ : ℚ))
    let order := remainders.insertionSort comesFirst
    ((order.map Prod.fst).foldl handOut (floors, remaining)).1

/-- The rule of one required skill, which `extra` questions go to beyond its first. -/
def composedRule (options : ComposeOptions) (skill : RoleSkill) (extra : Int) : ComposedRule where
  skillName := skill.skillName
  pickCount := 1 + extra
  skillIds := [skill.skillId]
  kinds := options.kinds.getD []
  minDifficulty := skill.minDifficulty.getD 1
  maxDifficulty := skill.maxDifficulty.getD 5
  excludeSeenDays := options.excludeSeenDays.getD 0
  scorePerQuestion := .ofInt SCORE_PER_QUESTION

def composeFromRole (skills : List RoleSkill) (options : ComposeOptions) :
    Except (DomainError Decimal) Composition :=
  let required := skills.filter RoleSkill.isRequired
  if required.length = 0 then
    .error ⟨.invalidRule,
      js "The role declares no required skill, so there is nothing to compose an assessment from.",
      [(js "skillCount", .ofInt skills.length)]⟩
  else if options.questionCount ≤ 0 then
    .error ⟨.invalidRule, js "questionCount must be a positive integer.",
      [(js "questionCount", .ofInt options.questionCount)]⟩
  else if options.questionCount < required.length then
    .error ⟨.invalidRule,
      js "This role has " ++ intText required.length ++
        js " required skills, so an assessment for it needs at least " ++
        intText required.length ++ js " questions.",
      [(js "questionCount", .ofInt options.questionCount),
        (js "requiredSkillCount", .ofInt required.length)]⟩
  else if required.any fun skill => decide (skill.weight ≤ 0) then
    .error ⟨.invalidRule, js "A required skill must carry a weight above zero.", []⟩
  else
    let spare := options.questionCount - required.length
    let extra := allocateByWeight spare (required.map fun skill => skill.weight.toRat)
    let rules := required.zipIdx.map fun (skill, index) =>
      composedRule options skill (extra[index]?.getD 0)
    .ok {
      sections := [⟨js "Questions", rules⟩]
      questionCount := (rules.map fun rule => rule.pickCount).sum
      totalScore := options.questionCount * SCORE_PER_QUESTION }

/-- A composed rule is that of a required skill. -/
theorem mem_composeFromRole {skills : List RoleSkill} {options : ComposeOptions}
    {composition : Composition} (composed : composeFromRole skills options = .ok composition)
    {rule : ComposedRule} (inside : rule ∈ composition.rules) :
    ∃ skill ∈ skills, skill.isRequired = true ∧ ∃ extra, rule = composedRule options skill extra := by
  unfold composeFromRole at composed
  dsimp only at composed
  split at composed
  · cases composed
  · split at composed
    · cases composed
    · split at composed
      · cases composed
      · split at composed
        · cases composed
        · cases composed
          obtain ⟨plan, only, member⟩ := List.mem_flatMap.mp inside
          cases List.mem_singleton.mp only
          obtain ⟨⟨skill, index⟩, indexed, rfl⟩ := List.mem_map.mp member
          have required := List.mem_filter.mp (List.fst_mem_of_mem_zipIdx indexed)
          exact ⟨skill, required.1, required.2, _, rfl⟩

example : allocateByWeight 7 [2, 1] = [5, 2] := by decide +kernel

end Assaybank.Domain
