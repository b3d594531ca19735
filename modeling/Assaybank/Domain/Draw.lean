import Assaybank.Domain.Unchecked

/-!
Owns the rules and rows whose counts, bounds and days are integers, which is what the columns and the
composition give them, as the rules and rows of `Unchecked.lean`.

Contract: on integers a rule is checked and matched dimension by dimension (`validateRule_iff`,
`matchesRule_iff`), and the eligible set holds every matching version once (`eligible_ids`,
`nodup_eligible`).
-/

namespace Assaybank.Domain

open Assaybank.Runtime Assaybank.Library Assaybank.Contracts Assaybank.Db

/-- One `section_rules` row. An empty list is no filter on its dimension, and zero days no
exclusion. -/
structure SectionRule where
  pickCount : Int
  skillIds : List SkillId
  kinds : List QuestionKind
  minDifficulty : Int
  maxDifficulty : Int
  excludeSeenDays : Int
  scorePerQuestion : Decimal
deriving DecidableEq

/-- A row of the pool a rule draws from. A version never seen has no `lastSeenDaysAgo`. -/
structure DrawCandidate where
  questionVersionId : VersionId
  skillIds : List SkillId
  kind : QuestionKind
  difficulty : Int
  lastSeenDaysAgo : Option Int
deriving DecidableEq

/-- The rule, as the draw reads it. -/
def SectionRule.unchecked (rule : SectionRule) : Unchecked.SectionRule where
  pickCount := .finite rule.pickCount
  skillIds := rule.skillIds
  kinds := rule.kinds
  minDifficulty := .finite rule.minDifficulty
  maxDifficulty := .finite rule.maxDifficulty
  excludeSeenDays := .finite rule.excludeSeenDays
  scorePerQuestion := .finite rule.scorePerQuestion.toRat

/-- The row, as the draw reads it. -/
def DrawCandidate.unchecked (row : DrawCandidate) : Unchecked.DrawCandidate where
  questionVersionId := row.questionVersionId
  skillIds := row.skillIds
  kind := row.kind
  difficulty := .finite row.difficulty
  lastSeenDaysAgo := row.lastSeenDaysAgo.map fun days => .finite days

def validateRule (rule : SectionRule) : Option (DomainError JsDouble) :=
  Unchecked.validateRule rule.unchecked

def matchesRule (rule : SectionRule) (row : DrawCandidate) : Bool :=
  Unchecked.matchesRule rule.unchecked row.unchecked

def eligible (rule : SectionRule) (pool : List DrawCandidate) : List Unchecked.DrawCandidate :=
  Unchecked.eligible rule.unchecked (pool.map DrawCandidate.unchecked)

section Integers

variable {rule : SectionRule}

private theorem isInteger_intCast (n : Int) : JsDouble.isInteger (.finite n) = true :=
  JsDouble.isInteger_iff.mpr ⟨n, rfl⟩

/-- What a rule has to meet, dimension by dimension. -/
theorem validateRule_iff :
    validateRule rule = none ↔
      0 < rule.pickCount ∧
      (MIN_DIFFICULTY ≤ rule.minDifficulty ∧ rule.minDifficulty ≤ rule.maxDifficulty ∧
        rule.maxDifficulty ≤ MAX_DIFFICULTY) ∧
      0 ≤ rule.excludeSeenDays ∧ 0 ≤ rule.scorePerQuestion := by
  have score : 0 ≤ rule.scorePerQuestion ↔ 0 ≤ rule.scorePerQuestion.toRat := by
    have zero : (0 : Decimal).toRat = 0 := by
      show (Decimal.ofInt 0).toRat = 0
      rw [Decimal.toRat_ofInt, Int.cast_zero]
    rw [Decimal.le_iff_toRat, zero]
  rw [validateRule, Unchecked.validateRule_eq_none, score]
  constructor
  · rintro ⟨⟨count, positive, counted⟩, ⟨low, high, lowSame, highSame, band⟩, ⟨days, seen⟩,
      number, same, nonnegative⟩
    have counted : rule.pickCount = count := by exact_mod_cast JsDouble.finite.inj counted
    have lowSame : rule.minDifficulty = low := by exact_mod_cast JsDouble.finite.inj lowSame
    have highSame : rule.maxDifficulty = high := by exact_mod_cast JsDouble.finite.inj highSame
    have seen : rule.excludeSeenDays = days := by exact_mod_cast JsDouble.finite.inj seen
    refine ⟨by omega, ?_, by omega, (JsDouble.finite.inj same).symm ▸ nonnegative⟩
    rw [lowSame, highSame]
    exact band
  · rintro ⟨positive, band, window, nonnegative⟩
    obtain ⟨count, counted⟩ := Int.eq_ofNat_of_zero_le positive.le
    obtain ⟨days, seen⟩ := Int.eq_ofNat_of_zero_le window
    constructor
    · refine ⟨count, by omega, ?_⟩
      show JsDouble.finite rule.pickCount = _
      rw [counted, Int.cast_natCast]
    · exact ⟨rule.minDifficulty, rule.maxDifficulty, rfl, rfl, band⟩
    · refine ⟨days, ?_⟩
      show JsDouble.finite rule.excludeSeenDays = _
      rw [seen, Int.cast_natCast]
    · exact ⟨_, rfl, nonnegative⟩

/-- What a rule asks of a row, dimension by dimension. -/
theorem matchesRule_iff {row : DrawCandidate} :
    matchesRule rule row = true ↔
      (rule.minDifficulty ≤ row.difficulty ∧ row.difficulty ≤ rule.maxDifficulty) ∧
      (rule.kinds = [] ∨ row.kind ∈ rule.kinds) ∧
      (rule.skillIds = [] ∨ ∃ skill ∈ row.skillIds, skill ∈ rule.skillIds) ∧
      (rule.excludeSeenDays ≤ 0 ∨
        ∀ days, row.lastSeenDaysAgo = some days → rule.excludeSeenDays ≤ days) := by
  have kinds : ¬(0 < rule.kinds.length ∧ (!rule.kinds.contains row.kind) = true) ↔
      (rule.kinds = [] ∨ row.kind ∈ rule.kinds) := by
    rw [not_and_or, Nat.not_lt, Nat.le_zero, List.length_eq_zero_iff]
    simp
  have skills :
      ¬(0 < rule.skillIds.length ∧ (!row.skillIds.any rule.skillIds.contains) = true) ↔
      (rule.skillIds = [] ∨ ∃ skill ∈ row.skillIds, skill ∈ rule.skillIds) := by
    rw [not_and_or, Nat.not_lt, Nat.le_zero, List.length_eq_zero_iff]
    simp
  have seen : ¬((JsDouble.lt (.finite 0) rule.unchecked.excludeSeenDays &&
      row.unchecked.lastSeenDaysAgo.any fun days =>
        days.lt rule.unchecked.excludeSeenDays) = true) ↔
      (rule.excludeSeenDays ≤ 0 ∨
        ∀ days, row.lastSeenDaysAgo = some days → rule.excludeSeenDays ≤ days) := by
    unfold SectionRule.unchecked DrawCandidate.unchecked
    rw [Bool.and_eq_true, not_and_or, JsDouble.lt_finite, not_lt]
    cases row.lastSeenDaysAgo with
    | none => simp
    | some days => simp
  have band : ¬((row.unchecked.difficulty.lt rule.unchecked.minDifficulty ||
      rule.unchecked.maxDifficulty.lt row.unchecked.difficulty) = true) ↔
      (rule.minDifficulty ≤ row.difficulty ∧ row.difficulty ≤ rule.maxDifficulty) := by
    unfold SectionRule.unchecked DrawCandidate.unchecked
    rw [Bool.or_eq_true, JsDouble.lt_finite, JsDouble.lt_finite, not_or, not_lt, not_lt,
      Int.cast_le, Int.cast_le]
  have whole : ¬(!row.unchecked.difficulty.isInteger) = true := by
    rw [show row.unchecked.difficulty.isInteger = true from isInteger_intCast row.difficulty]
    exact Bool.false_ne_true
  rw [← kinds, ← skills, ← seen, ← band]
  unfold matchesRule Unchecked.matchesRule
  rw [if_neg whole]
  split_ifs with outside unkind untagged excluded
  · exact iff_of_false not_false fun all => all.1 outside
  · exact iff_of_false not_false fun all => all.2.1 unkind
  · exact iff_of_false not_false fun all => all.2.2.1 untagged
  · exact iff_of_false not_false fun all => all.2.2.2 excluded
  · exact iff_of_true rfl ⟨outside, unkind, untagged, excluded⟩

/-- The eligible set holds each version once. -/
theorem nodup_eligible (pool : List DrawCandidate) :
    ((eligible rule pool).map Unchecked.DrawCandidate.questionVersionId).Nodup :=
  Unchecked.nodup_eligible

/-- The versions of the eligible set are those of the matching rows. -/
theorem eligible_ids {pool : List DrawCandidate} {id : VersionId} :
    id ∈ (eligible rule pool).map Unchecked.DrawCandidate.questionVersionId ↔
      ∃ row ∈ pool, matchesRule rule row = true ∧ row.questionVersionId = id := by
  rw [eligible, Unchecked.eligible_ids]
  constructor
  · rintro ⟨_, inside, matching, same⟩
    obtain ⟨row, member, rfl⟩ := List.mem_map.mp inside
    exact ⟨row, member, matching, same⟩
  · rintro ⟨row, member, matching, same⟩
    exact ⟨row.unchecked, List.mem_map_of_mem member, matching, same⟩

end Integers

end Assaybank.Domain
