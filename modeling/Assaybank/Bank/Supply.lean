import Assaybank.Bank.Availability
import Assaybank.Library.DisjointChoice

/-!
Owns the plan of an assessment (`apps/api/src/assessments/routes.ts`, `withAvailability`) and what
its verdict says about a paper.

Contract: a paper exists exactly where every set of rules finds enough questions among all that
match one of them (`paper_exists_iff`). The plan counts rule by rule, so it vouches for a paper
exactly where no set of rules is short while each of its rules is not (`plan_vouches_iff`).
-/

namespace Assaybank.Bank

open Assaybank.Runtime Assaybank.Library Assaybank.Contracts Assaybank.Domain Assaybank.Db

/-! ### The plan -/

structure PlannedRule where
  skillId : SkillId
  skillName : JsString
  pickCount : Int
  minDifficulty : Int
  maxDifficulty : Int
  available : Nat
deriving DecidableEq

structure PlannedSection where
  name : JsString
  rules : List PlannedRule
deriving DecidableEq

structure Plan where
  sections : List PlannedSection
  feasible : Bool
deriving DecidableEq

/-- The pool a rule would draw from, as the plan counts it: by its first skill. -/
def ruleAvailability (bank : BankState) (rule : SectionRule) : Nat :=
  match rule.skillIds.head? with
  | none => 0
  | some skillId => countAvailable bank (availabilityFilter skillId rule)

def planRule (bank : BankState) (rule : ComposedRule) : PlannedRule where
  skillId := rule.skillIds.head?.getD []
  skillName := rule.skillName
  pickCount := rule.pickCount
  minDifficulty := rule.minDifficulty
  maxDifficulty := rule.maxDifficulty
  available := ruleAvailability bank rule.toSectionRule

/-- Pairs each composed rule with the size of its pool. -/
def withAvailability (bank : BankState) (composition : Composition) : Plan where
  sections := composition.sections.map fun plan => ⟨plan.name, plan.rules.map (planRule bank)⟩
  feasible := composition.sections.all fun plan => plan.rules.all fun rule =>
    !decide ((ruleAvailability bank rule.toSectionRule : Int) < rule.pickCount)

/-- What a refused creation lists. -/
structure Shortfall where
  skillName : JsString
  needed : Int
  available : Nat
deriving DecidableEq

def shortfalls (sections : List PlannedSection) : List Shortfall :=
  ((sections.flatMap PlannedSection.rules).filter fun rule =>
    decide ((rule.available : Int) < rule.pickCount)).map fun rule =>
      ⟨rule.skillName, rule.pickCount, rule.available⟩

/-- A plan names a shortfall exactly where it is not feasible. -/
theorem shortfalls_eq_nil_iff (bank : BankState) (composition : Composition) :
    shortfalls (withAvailability bank composition).sections = [] ↔
      (withAvailability bank composition).feasible = true := by
  unfold shortfalls withAvailability
  simp only [List.map_eq_nil_iff, List.filter_eq_nil_iff, List.all_eq_true, Bool.not_eq_true',
    decide_eq_false_iff_not, decide_eq_true_eq]
  constructor
  · intro met plan listed rule member
    refine met (planRule bank rule) ?_
    exact List.mem_flatMap.mpr ⟨_, List.mem_map_of_mem listed, List.mem_map_of_mem member⟩
  · intro met planned inside
    obtain ⟨shown, listed, member⟩ := List.mem_flatMap.mp inside
    obtain ⟨plan, origin, rfl⟩ := List.mem_map.mp listed
    obtain ⟨rule, source, rfl⟩ := List.mem_map.mp member
    exact met plan origin rule source

/-! ### Papers -/

/-- The versions a rule may be served with. -/
def rulePool (bank : BankState) (rule : SectionRule) : Finset VersionId :=
  ((eligible rule (drawPool bank fun _ => none)).map
    Unchecked.DrawCandidate.questionVersionId).toFinset

section Paper

variable (bank : BankState) (rules : List ComposedRule)

def pools (index : Fin rules.length) : Finset VersionId := rulePool bank (rules.get index).toSectionRule

def demands (index : Fin rules.length) : Nat := (rules.get index).pickCount.toNat

/-- For each rule as many versions as it asks for, none of them under two rules. -/
abbrev Paper := DisjointChoice (pools bank rules) (demands rules)

/-- Every set of rules finds among the versions that match one of them as many as it asks for. -/
abbrev EnoughTogether : Prop := RoomForAll (pools bank rules) (demands rules)

end Paper

/-- How many questions of its first skill a rule may draw. -/
def firstSkillCount (bank : BankState) (rule : SectionRule) : Nat :=
  match rule.skillIds.head? with
  | none => 0
  | some skillId =>
      (eligible { rule with skillIds := [skillId] } (drawPool bank fun _ => none)).length

/-- The rule asks for more questions of its first skill than there are. -/
def ShortAlone (bank : BankState) (rule : SectionRule) : Prop :=
  (firstSkillCount bank rule : Int) < rule.pickCount

instance (bank : BankState) (rule : SectionRule) : Decidable (ShortAlone bank rule) :=
  inferInstanceAs (Decidable (_ < _))

/-! ### The verdict -/

section Verdict

variable {bank : BankState}

theorem ruleAvailability_eq (legal : LegalBank bank) {rule : SectionRule}
    (unseen : rule.excludeSeenDays = 0) : ruleAvailability bank rule = firstSkillCount bank rule := by
  unfold ruleAvailability firstSkillCount
  cases rule.skillIds.head? with
  | none => rfl
  | some skillId =>
      have narrowed : ({ rule with skillIds := [skillId] } : SectionRule).excludeSeenDays = 0 := unseen
      exact countAvailable_eq_eligible legal rfl (.inl narrowed.le)

/-- The plan finds no shortfall where no rule is short by itself. -/
theorem feasible_iff (legal : LegalBank bank) {composition : Composition}
    (unseen : ∀ rule ∈ composition.rules, rule.excludeSeenDays = 0) :
    (withAvailability bank composition).feasible = true ↔
      ∀ rule ∈ composition.rules, ¬ShortAlone bank rule.toSectionRule := by
  unfold withAvailability Composition.rules at *
  simp only [List.all_eq_true, Bool.not_eq_true', decide_eq_false_iff_not]
  constructor
  · intro enough rule inside
    obtain ⟨plan, listed, member⟩ := List.mem_flatMap.mp inside
    rw [ShortAlone, ← ruleAvailability_eq legal (unseen rule inside)]
    exact enough plan listed rule member
  · intro alone plan listed rule member
    have inside := List.mem_flatMap.mpr ⟨plan, listed, member⟩
    rw [ruleAvailability_eq legal (unseen rule inside)]
    exact alone rule inside

/-- A paper exists where every set of rules finds enough. -/
theorem paper_exists_iff (rules : List ComposedRule) :
    Nonempty (Paper bank rules) ↔ EnoughTogether bank rules :=
  exists_disjoint_choice_iff

/-- A plan without a shortfall vouches for a paper exactly where some rule is short by itself, and
the plan says so, or every set of rules finds enough together. -/
theorem plan_vouches_iff (legal : LegalBank bank) {composition : Composition}
    (unseen : ∀ rule ∈ composition.rules, rule.excludeSeenDays = 0) :
    ((withAvailability bank composition).feasible = true →
      Nonempty (Paper bank composition.rules)) ↔
    ((∃ rule ∈ composition.rules, ShortAlone bank rule.toSectionRule) ∨
      EnoughTogether bank composition.rules) := by
  rw [feasible_iff legal unseen, paper_exists_iff]
  constructor
  · intro vouched
    by_cases alone : ∀ rule ∈ composition.rules, ¬ShortAlone bank rule.toSectionRule
    · exact .inr (vouched alone)
    · apply Or.inl
      by_contra none
      exact alone fun rule inside short => none ⟨rule, inside, short⟩
  · intro enough alone
    cases enough with
    | inl short =>
        obtain ⟨rule, inside, short⟩ := short
        exact absurd short (alone rule inside)
    | inr together => exact together

end Verdict

/-! ### One question, two rules -/

/-- The paper of two questions composed from `dataRole`. -/
def dataPaper : Composition where
  sections := [⟨js "Questions",
    [{ skillName := js "SQL", pickCount := 1, skillIds := [sqlSkill.id], kinds := [],
       minDifficulty := 1, maxDifficulty := 5, excludeSeenDays := 0, scorePerQuestion := 1 },
     { skillName := js "Modelling", pickCount := 1, skillIds := [modellingSkill.id], kinds := [],
       minDifficulty := 1, maxDifficulty := 5, excludeSeenDays := 0, scorePerQuestion := 1 }]⟩]
  questionCount := 2
  totalScore := 2

private theorem dataPaper_unseen : ∀ rule ∈ dataPaper.rules, rule.excludeSeenDays = 0 := by
  have all : dataPaper.rules.all (fun rule => rule.excludeSeenDays == 0) = true := by decide
  intro rule inside
  exact beq_iff_eq.mp (List.all_eq_true.mp all rule inside)

theorem plan_vouches_iff_example :
    ((withAvailability sharedBank dataPaper).feasible = true →
      Nonempty (Paper sharedBank dataPaper.rules)) ↔
    ((∃ rule ∈ dataPaper.rules, ShortAlone sharedBank rule.toSectionRule) ∨
      EnoughTogether sharedBank dataPaper.rules) :=
  plan_vouches_iff sharedBank_legal dataPaper_unseen

/-- The one question is available to both rules, and there is no second one. -/
theorem shared_question_counted_twice :
    composeFromRole (getJobRoleSkills sharedBank dataRoleSkills dataRole) ⟨2, none, none⟩ =
        .ok dataPaper ∧
      LegalBank sharedBank ∧ (∀ rule ∈ dataPaper.rules, rule.excludeSeenDays = 0) ∧
      (withAvailability sharedBank dataPaper).feasible = true ∧
      ¬Nonempty (Paper sharedBank dataPaper.rules) := by
  refine ⟨by decide +kernel, sharedBank_legal, dataPaper_unseen, by decide +kernel, ?_⟩
  rintro ⟨paper⟩
  have overfull : ¬EnoughTogether sharedBank dataPaper.rules := by decide +kernel
  exact overfull paper.room

end Assaybank.Bank
