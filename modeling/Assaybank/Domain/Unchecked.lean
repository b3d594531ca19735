import Assaybank.Contracts.QuestionInput
import Assaybank.Db.Questions
import Assaybank.Domain.Shuffle
import Assaybank.Library.Arrays
import Mathlib.Data.List.Sort

/-!
Owns the draw of a section's questions from a pool (`packages/core-domain/src/draw.ts`, `errors.ts`),
under rules and rows whose numbers nobody has checked: a count, a bound or a number of days may be a
fraction, an infinity or NaN. The arrays of the draw are those of memory, read and changed in place.

Contract: a draw succeeds exactly when its rule is valid and enough versions of the pool fit it, it
then serves as many rows as asked, of different versions, which are in the pool and fit; and no array
that was there before is changed (`resolveDraw_exact`).
-/

namespace Assaybank.Domain

open Assaybank.Runtime Assaybank.Library Assaybank.Contracts Assaybank.Db

/-! ### Errors -/

inductive DomainErrorCode where
  | illegalTransition
  | voidReasonRequired
  | alreadyVoided
  | invalidRule
  | drawInfeasible
deriving DecidableEq, Repr

/-- A domain failure, with the numbers it names. -/
structure DomainError (Number : Type) where
  code : DomainErrorCode
  message : JsString
  details : List (JsString × Number)
deriving DecidableEq

/-- The text of an integer in a message. -/
def intText (n : Int) : JsString := numberText (.ofInt n)

namespace Unchecked

open Assaybank.Library.Arrays (Kept contents_allocate contents_change contents_change_other
  kept_allocate kept_change size_allocate size_change)

/-! ### Rules and rows -/

/-- One `section_rules` row, as a caller passes it. -/
structure SectionRule where
  pickCount : JsDouble
  skillIds : List SkillId
  kinds : List QuestionKind
  minDifficulty : JsDouble
  maxDifficulty : JsDouble
  excludeSeenDays : JsDouble
  scorePerQuestion : JsDouble
deriving DecidableEq

/-- A row of the pool. Several rows may be of one version. -/
structure DrawCandidate where
  questionVersionId : VersionId
  skillIds : List SkillId
  kind : QuestionKind
  difficulty : JsDouble
  lastSeenDaysAgo : Option JsDouble
deriving DecidableEq

def validateRule (rule : SectionRule) : Option (DomainError JsDouble) :=
  if !rule.pickCount.isInteger || rule.pickCount.le (.finite 0) then
    some ⟨.invalidRule, js "pickCount must be a positive integer.",
      [(js "pickCount", rule.pickCount)]⟩
  else if !rule.minDifficulty.isInteger || !rule.maxDifficulty.isInteger ||
      rule.minDifficulty.lt (.finite MIN_DIFFICULTY) ||
      JsDouble.lt (.finite MAX_DIFFICULTY) rule.maxDifficulty then
    some ⟨.invalidRule,
      js "Difficulty bounds must be integers between " ++ intText MIN_DIFFICULTY ++ js " and " ++
        intText MAX_DIFFICULTY ++ js ".",
      [(js "minDifficulty", rule.minDifficulty), (js "maxDifficulty", rule.maxDifficulty)]⟩
  else if rule.maxDifficulty.lt rule.minDifficulty then
    some ⟨.invalidRule, js "minDifficulty must not exceed maxDifficulty.",
      [(js "minDifficulty", rule.minDifficulty), (js "maxDifficulty", rule.maxDifficulty)]⟩
  else if !rule.excludeSeenDays.isInteger || rule.excludeSeenDays.lt (.finite 0) then
    some ⟨.invalidRule, js "excludeSeenDays must be a non-negative integer.",
      [(js "excludeSeenDays", rule.excludeSeenDays)]⟩
  else if !rule.scorePerQuestion.isFinite || rule.scorePerQuestion.lt (.finite 0) then
    some ⟨.invalidRule, js "scorePerQuestion must be a finite, non-negative number.",
      [(js "scorePerQuestion", rule.scorePerQuestion)]⟩
  else none

def matchesRule (rule : SectionRule) (entry : DrawCandidate) : Bool :=
  if !entry.difficulty.isInteger then false
  else if entry.difficulty.lt rule.minDifficulty || rule.maxDifficulty.lt entry.difficulty then
    false
  else if 0 < rule.kinds.length ∧ !rule.kinds.contains entry.kind then false
  else if 0 < rule.skillIds.length ∧ !entry.skillIds.any rule.skillIds.contains then false
  else if JsDouble.lt (.finite 0) rule.excludeSeenDays &&
      entry.lastSeenDaysAgo.any (fun days => days.lt rule.excludeSeenDays) then false
  else true

/-- What the loop of `eligible` collects, having taken the versions of `seen`. -/
def matchedFrom (rule : SectionRule) (seen : List VersionId) (pool : List DrawCandidate) :
    List DrawCandidate :=
  firstOfEach DrawCandidate.questionVersionId (matchesRule rule) seen pool

/-- `matched.sort`, by version. -/
def sortById (matched : List DrawCandidate) : List DrawCandidate :=
  matched.insertionSort fun a b => a.questionVersionId ≤ b.questionVersionId

def eligible (rule : SectionRule) (pool : List DrawCandidate) : List DrawCandidate :=
  sortById (matchedFrom rule [] pool)

/-- `items.slice(0, last)`. -/
def sliceTo {α : Type} (items : List α) : JsDouble → List α
  | .finite last =>
      if last < 0 then items.take (items.length - (-⌈last⌉).toNat) else items.take ⌊last⌋.toNat
  | .infinite negative => if negative then [] else items
  | .nan => []

/-- `String(value)` of an integer. -/
def integerText : JsDouble → JsString
  | .finite value => intText ⌊value⌋
  | .infinite negative => js (if negative then "-Infinity" else "Infinity")
  | .nan => js "NaN"

/-- The refusal of a draw from a pool with too few eligible rows. -/
def infeasible (rule : SectionRule) (eligibleCount poolSize : Nat) :
    DomainError JsDouble :=
  ⟨.drawInfeasible,
    js "The rule needs " ++ integerText rule.pickCount ++ js " question(s) but only " ++
      intText eligibleCount ++ js " in the pool match it.",
    [(js "pickCount", rule.pickCount), (js "eligibleCount", .finite eligibleCount),
      (js "poolSize", .finite poolSize)]⟩

def resolveDraw (rule : SectionRule) (pool : List DrawCandidate) (rng : Nat → JsDouble) :
    Except (DomainError JsDouble) (List DrawCandidate) :=
  match validateRule rule with
  | some invalid => .error invalid
  | none =>
      let pickable := eligible rule pool
      if JsDouble.lt (.finite pickable.length) rule.pickCount then
        .error (infeasible rule pickable.length pool.length)
      else .ok (sliceTo (shuffleWith pickable rng) rule.pickCount)

/-! ### The draw in memory -/

/-- The loop of `eligible`: what matches is pushed to `matched`. -/
def pushMatched (rule : SectionRule) (matched : Nat) :
    List VersionId → List DrawCandidate → Arrays DrawCandidate → Arrays DrawCandidate
  | _, [], arrays => arrays
  | seen, entry :: rest, arrays =>
      if seen.contains entry.questionVersionId || !matchesRule rule entry then
        pushMatched rule matched seen rest arrays
      else
        pushMatched rule matched (entry.questionVersionId :: seen) rest
          (arrays.change matched (· ++ [entry]))

def eligibleAt (rule : SectionRule) (pool : Nat) (arrays : Arrays DrawCandidate) :
    Nat × Arrays DrawCandidate :=
  let entries := arrays.contents pool
  let (matched, arrays) := arrays.allocate []
  let arrays := pushMatched rule matched [] entries arrays
  (matched, arrays.change matched sortById)

/-- The loop of `shuffleWith`: a position of `pool` is spliced out and pushed to `out` until `pool`
is empty, in `rounds` rounds at most. -/
def spliceAll {α : Type} (rng : Nat → JsDouble) (pool out : Nat) :
    (rounds call : Nat) → Arrays α → Arrays α
  | 0, _, arrays => arrays
  | rounds + 1, call, arrays =>
      let remaining := arrays.contents pool
      if 0 < remaining.length then
        let index := boundedIndex (rng call) remaining.length
        let arrays := arrays.change pool (·.eraseIdx index)
        let arrays := arrays.change out (· ++ (remaining.drop index).take 1)
        spliceAll rng pool out rounds (call + 1) arrays
      else arrays

def shuffleWithAt {α : Type} (items : Nat) (rng : Nat → JsDouble) (arrays : Arrays α) :
    Nat × Arrays α :=
  let copied := arrays.contents items
  let (pool, arrays) := arrays.allocate copied
  let (out, arrays) := arrays.allocate []
  (out, spliceAll rng pool out copied.length 0 arrays)

/-- The draw, and the memory after it. What it serves is a new array. -/
def resolveDrawAt (rule : SectionRule) (pool : Nat) (rng : Nat → JsDouble)
    (arrays : Arrays DrawCandidate) : Except (DomainError JsDouble) Nat × Arrays DrawCandidate :=
  match validateRule rule with
  | some invalid => (.error invalid, arrays)
  | none =>
      let poolSize := (arrays.contents pool).length
      let (pickable, arrays) := eligibleAt rule pool arrays
      let eligibleCount := (arrays.contents pickable).length
      if JsDouble.lt (.finite eligibleCount) rule.pickCount then
        (.error (infeasible rule eligibleCount poolSize), arrays)
      else
        let (shuffled, arrays) := shuffleWithAt pickable rng arrays
        let (drawn, arrays) := arrays.allocate (sliceTo (arrays.contents shuffled) rule.pickCount)
        (.ok drawn, arrays)

/-! ### What a rule asks for -/

/-- The rules that are valid. -/
structure Valid (rule : SectionRule) : Prop where
  pickCount : ∃ count : Nat, 0 < count ∧ rule.pickCount = .finite count
  band : ∃ low high : Int, rule.minDifficulty = .finite low ∧ rule.maxDifficulty = .finite high ∧
    1 ≤ low ∧ low ≤ high ∧ high ≤ 5
  window : ∃ days : Nat, rule.excludeSeenDays = .finite days
  score : ∃ score : ℚ, rule.scorePerQuestion = .finite score ∧ 0 ≤ score

/-- A row that was last seen fewer days ago than the rule excludes. -/
def RecentlySeen (rule : SectionRule) (row : DrawCandidate) : Prop :=
  ∃ days, row.lastSeenDaysAgo = some days ∧ days.lt rule.excludeSeenDays = true

/-- The rows that fit a rule, on each of its dimensions. -/
structure Fits (rule : SectionRule) (row : DrawCandidate) : Prop where
  band : ∃ difficulty low high : Int, row.difficulty = .finite difficulty ∧
    rule.minDifficulty = .finite low ∧ rule.maxDifficulty = .finite high ∧
    low ≤ difficulty ∧ difficulty ≤ high
  kind : rule.kinds = [] ∨ row.kind ∈ rule.kinds
  skill : rule.skillIds = [] ∨ ∃ skill ∈ row.skillIds, skill ∈ rule.skillIds
  unseen : rule.excludeSeenDays = .finite 0 ∨ ¬RecentlySeen rule row

/-- As many different versions as the rule asks for have a row that fits. -/
def Feasible (rule : SectionRule) (pool : List DrawCandidate) : Prop :=
  ∃ ids : List VersionId, ids.Nodup ∧ rule.pickCount.le (.finite ids.length) = true ∧
    ∀ id ∈ ids, ∃ row ∈ pool, row.questionVersionId = id ∧ Fits rule row

private theorem positive_iff {value : JsDouble} :
    (!value.isInteger || value.le (.finite 0)) = false ↔
      ∃ count : Nat, 0 < count ∧ value = .finite count := by
  rw [Bool.or_eq_false_iff, Bool.not_eq_false', JsDouble.isInteger_iff]
  constructor
  · rintro ⟨⟨n, rfl⟩, above⟩
    rw [← Bool.not_eq_true, JsDouble.le_finite, not_le] at above
    have positive : 0 < n := by exact_mod_cast above
    obtain ⟨count, rfl⟩ := Int.eq_ofNat_of_zero_le positive.le
    exact ⟨count, by omega, by simp⟩
  · rintro ⟨count, positive, rfl⟩
    refine ⟨⟨count, by simp⟩, ?_⟩
    rw [← Bool.not_eq_true, JsDouble.le_finite, not_le]
    exact_mod_cast positive

theorem validateRule_eq_none {rule : SectionRule} : validateRule rule = none ↔ Valid rule := by
  unfold validateRule
  constructor
  · intro accepted
    split_ifs at accepted with count band order window score
    simp only [Bool.not_eq_true] at count band order window score
    obtain ⟨lowWhole, highWhole, above, below⟩ : rule.minDifficulty.isInteger = true ∧
        rule.maxDifficulty.isInteger = true ∧
        rule.minDifficulty.lt (.finite MIN_DIFFICULTY) = false ∧
        JsDouble.lt (.finite MAX_DIFFICULTY) rule.maxDifficulty = false := by
      simpa [and_assoc] using band
    obtain ⟨low, lowSame⟩ := JsDouble.isInteger_iff.mp lowWhole
    obtain ⟨high, highSame⟩ := JsDouble.isInteger_iff.mp highWhole
    rw [lowSame, ← Bool.not_eq_true, JsDouble.lt_finite, not_lt] at above
    rw [highSame, ← Bool.not_eq_true, JsDouble.lt_finite, not_lt] at below
    rw [lowSame, highSame, ← Bool.not_eq_true, JsDouble.lt_finite, not_lt] at order
    constructor
    · exact positive_iff.mp count
    · exact ⟨low, high, lowSame, highSame, by exact_mod_cast above, by exact_mod_cast order,
        by exact_mod_cast below⟩
    · rw [Bool.or_eq_false_iff, Bool.not_eq_false', JsDouble.isInteger_iff] at window
      obtain ⟨⟨days, same⟩, nonnegative⟩ := window
      rw [same, ← Bool.not_eq_true, JsDouble.lt_finite, not_lt] at nonnegative
      obtain ⟨whole, rfl⟩ := Int.eq_ofNat_of_zero_le (by exact_mod_cast nonnegative : 0 ≤ days)
      exact ⟨whole, by rw [same]; simp⟩
    · rw [Bool.or_eq_false_iff, Bool.not_eq_false', JsDouble.isFinite_iff] at score
      obtain ⟨⟨number, same⟩, nonnegative⟩ := score
      rw [same, ← Bool.not_eq_true, JsDouble.lt_finite, not_lt] at nonnegative
      exact ⟨number, same, nonnegative⟩
  · intro valid
    obtain ⟨low, high, lowSame, highSame, above, order, below⟩ := valid.band
    obtain ⟨days, daysSame⟩ := valid.window
    obtain ⟨score, scoreSame, nonnegative⟩ := valid.score
    have count := positive_iff.mpr valid.pickCount
    have lowest : ¬((low : ℚ) < (MIN_DIFFICULTY : Int)) := not_lt.mpr (by exact_mod_cast above)
    have highest : ¬(((MAX_DIFFICULTY : Int) : ℚ) < high) := not_lt.mpr (by exact_mod_cast below)
    have ordered : ¬((high : ℚ) < low) := not_lt.mpr (by exact_mod_cast order)
    rw [if_neg (by simp [count]), if_neg, if_neg, if_neg, if_neg]
    · simp only [scoreSame, Bool.or_eq_true, JsDouble.lt_finite, not_or, not_lt]
      exact ⟨by simp [JsDouble.isFinite], nonnegative⟩
    · simp only [daysSame, Bool.or_eq_true, JsDouble.lt_finite, not_or, not_lt]
      refine ⟨?_, Nat.cast_nonneg _⟩
      simp only [Bool.not_eq_true', Bool.not_eq_false]
      exact JsDouble.isInteger_iff.mpr ⟨days, by simp⟩
    · rw [lowSame, highSame, JsDouble.lt_finite]
      exact ordered
    · simp only [lowSame, highSame, Bool.or_eq_true, JsDouble.lt_finite, not_or]
      have whole (n : Int) : ¬(!JsDouble.isInteger (.finite n)) = true := by
        simp only [Bool.not_eq_true', Bool.not_eq_false]
        exact JsDouble.isInteger_iff.mpr ⟨n, rfl⟩
      exact ⟨⟨⟨whole low, whole high⟩, lowest⟩, highest⟩

/-- What matches a valid rule fits it. -/
theorem matchesRule_iff {rule : SectionRule} (valid : Valid rule) {row : DrawCandidate} :
    matchesRule rule row = true ↔ Fits rule row := by
  obtain ⟨low, high, lowSame, highSame, -⟩ := valid.band
  obtain ⟨days, daysSame⟩ := valid.window
  have kinds : ¬(0 < rule.kinds.length ∧ (!rule.kinds.contains row.kind) = true) ↔
      (rule.kinds = [] ∨ row.kind ∈ rule.kinds) := by
    rw [not_and_or, Nat.not_lt, Nat.le_zero, List.length_eq_zero_iff]
    simp
  have skills : ¬(0 < rule.skillIds.length ∧ (!row.skillIds.any rule.skillIds.contains) = true) ↔
      (rule.skillIds = [] ∨ ∃ skill ∈ row.skillIds, skill ∈ rule.skillIds) := by
    rw [not_and_or, Nat.not_lt, Nat.le_zero, List.length_eq_zero_iff]
    simp
  have unseen : ¬((JsDouble.lt (.finite 0) rule.excludeSeenDays &&
      row.lastSeenDaysAgo.any fun ago => ago.lt rule.excludeSeenDays) = true) ↔
      (rule.excludeSeenDays = .finite 0 ∨ ¬RecentlySeen rule row) := by
    have window : JsDouble.lt (.finite 0) rule.excludeSeenDays = true ↔
        ¬rule.excludeSeenDays = .finite 0 := by
      rw [daysSame, JsDouble.lt_finite, JsDouble.finite.injEq]
      exact (Nat.cast_nonneg days).lt_iff_ne'
    rw [Bool.and_eq_true, not_and_or, window, not_not, Option.any_eq_true]
    exact Iff.rfl
  have band : (row.difficulty.isInteger = true ∧
      ¬((row.difficulty.lt rule.minDifficulty || rule.maxDifficulty.lt row.difficulty) = true)) ↔
      ∃ difficulty low high : Int, row.difficulty = .finite difficulty ∧
        rule.minDifficulty = .finite low ∧ rule.maxDifficulty = .finite high ∧
        low ≤ difficulty ∧ difficulty ≤ high := by
    rw [JsDouble.isInteger_iff, lowSame, highSame]
    constructor
    · rintro ⟨⟨difficulty, same⟩, inBand⟩
      rw [same, Bool.or_eq_true, JsDouble.lt_finite, JsDouble.lt_finite, not_or, not_lt,
        not_lt] at inBand
      exact ⟨difficulty, low, high, same, rfl, rfl, by exact_mod_cast inBand.1,
        by exact_mod_cast inBand.2⟩
    · rintro ⟨difficulty, lowest, highest, same, lowHere, highHere, above, below⟩
      refine ⟨⟨difficulty, same⟩, ?_⟩
      rw [same, lowHere, highHere, Bool.or_eq_true, JsDouble.lt_finite, JsDouble.lt_finite, not_or,
        not_lt, not_lt]
      exact ⟨by exact_mod_cast above, by exact_mod_cast below⟩
  unfold matchesRule
  split_ifs with fraction outside unkind untagged seen
  · refine iff_of_false not_false fun fits => ?_
    rw [Bool.not_eq_true', ← Bool.not_eq_true] at fraction
    exact fraction (band.mpr fits.band).1
  · exact iff_of_false not_false fun fits => (band.mpr fits.band).2 outside
  · exact iff_of_false not_false fun fits => kinds.mpr fits.kind unkind
  · exact iff_of_false not_false fun fits => skills.mpr fits.skill untagged
  · exact iff_of_false not_false fun fits => unseen.mpr fits.unseen seen
  · rw [Bool.not_eq_true', Bool.not_eq_false] at fraction
    exact iff_of_true rfl
      ⟨band.mp ⟨fraction, outside⟩, kinds.mp unkind, skills.mp untagged, unseen.mp seen⟩

/-! ### The eligible rows -/

section Eligible

variable {rule : SectionRule} {pool : List DrawCandidate}

theorem eligible_perm : (eligible rule pool).Perm (matchedFrom rule [] pool) :=
  List.perm_insertionSort _ _

theorem mem_eligible {row : DrawCandidate} (inside : row ∈ eligible rule pool) :
    row ∈ pool ∧ matchesRule rule row = true := by
  have matched := mem_firstOfEach (eligible_perm.mem_iff.mp inside)
  exact ⟨matched.1, matched.2.1⟩

theorem nodup_eligible : ((eligible rule pool).map DrawCandidate.questionVersionId).Nodup :=
  (eligible_perm.map _).nodup_iff.mpr (nodup_firstOfEach [] pool)

/-- The versions of the eligible rows are those of the rows that match. -/
theorem eligible_ids {id : VersionId} :
    id ∈ (eligible rule pool).map DrawCandidate.questionVersionId ↔
      ∃ row ∈ pool, matchesRule rule row = true ∧ row.questionVersionId = id := by
  constructor
  · intro inside
    obtain ⟨row, member, same⟩ := List.mem_map.mp inside
    exact ⟨row, (mem_eligible member).1, (mem_eligible member).2, same⟩
  · rintro ⟨row, member, matching, rfl⟩
    apply (eligible_perm.map _).mem_iff.mpr
    exact firstOfEach_takes member matching List.not_mem_nil

/-- The eligible rows stand in the order of their versions. -/
theorem sorted_eligible : (eligible rule pool).Pairwise fun a b =>
    a.questionVersionId ≤ b.questionVersionId :=
  List.pairwise_insertionSort (fun a b : DrawCandidate => a.questionVersionId ≤ b.questionVersionId) _

/-- A pool supplies a rule when it has as many eligible rows as asked. -/
theorem feasible_iff (valid : Valid rule) :
    Feasible rule pool ↔
      ¬JsDouble.lt (.finite (eligible rule pool).length) rule.pickCount = true := by
  obtain ⟨count, _, counted⟩ := valid.pickCount
  rw [Feasible, counted, JsDouble.lt_finite, not_lt]
  constructor
  · rintro ⟨ids, distinct, enough, known⟩
    rw [JsDouble.le_finite] at enough
    have covered : ids ⊆ (eligible rule pool).map DrawCandidate.questionVersionId := by
      intro id inside
      obtain ⟨row, member, same, fits⟩ := known id inside
      exact eligible_ids.mpr ⟨row, member, (matchesRule_iff valid).mpr fits, same⟩
    have most := (distinct.subperm covered).length_le
    rw [List.length_map] at most
    exact enough.trans (by exact_mod_cast most)
  · intro enough
    refine ⟨(eligible rule pool).map DrawCandidate.questionVersionId, nodup_eligible, ?_, ?_⟩
    · rw [JsDouble.le_finite, List.length_map]
      exact enough
    · intro id inside
      obtain ⟨row, member, matching, same⟩ := eligible_ids.mp inside
      exact ⟨row, member, same, (matchesRule_iff valid).mp matching⟩

theorem sliceTo_natCast {α : Type} (items : List α) (count : Nat) :
    sliceTo items (.finite count) = items.take count := by
  have nonnegative : ¬((count : ℚ) < 0) := not_lt.mpr (Nat.cast_nonneg count)
  show (if (count : ℚ) < 0 then _ else items.take ⌊(count : ℚ)⌋.toNat) = _
  rw [if_neg nonnegative, Int.floor_natCast, Int.toNat_natCast]

/-- A draw that its rule and its pool allow serves the first rows of a shuffle. -/
theorem resolveDraw_of_feasible (valid : Valid rule) (feasible : Feasible rule pool)
    (rng : Nat → JsDouble) :
    resolveDraw rule pool rng =
      .ok (sliceTo (shuffleWith (eligible rule pool) rng) rule.pickCount) := by
  unfold resolveDraw
  rw [validateRule_eq_none.mpr valid]
  exact if_neg ((feasible_iff valid).mp feasible)

/-- What a draw serves was allowed by its rule and its pool. -/
theorem resolveDraw_eq_ok {rng : Nat → JsDouble} {drawn : List DrawCandidate} :
    resolveDraw rule pool rng = .ok drawn ↔ Valid rule ∧ Feasible rule pool ∧
      drawn = sliceTo (shuffleWith (eligible rule pool) rng) rule.pickCount := by
  constructor
  · intro resolved
    unfold resolveDraw at resolved
    split at resolved
    · cases resolved
    · rename_i accepted
      have valid := validateRule_eq_none.mp accepted
      dsimp only at resolved
      split at resolved
      · cases resolved
      · rename_i enough
        cases resolved
        exact ⟨valid, (feasible_iff valid).mpr enough, rfl⟩
  · rintro ⟨valid, feasible, rfl⟩
    exact resolveDraw_of_feasible valid feasible rng

/-- A draw serves as many rows as asked, of different versions, each eligible. -/
theorem resolveDraw_serves {rng : Nat → JsDouble} {drawn : List DrawCandidate}
    (resolved : resolveDraw rule pool rng = .ok drawn) :
    rule.pickCount = .finite drawn.length ∧
      (drawn.map DrawCandidate.questionVersionId).Nodup ∧
      ∀ row ∈ drawn, row ∈ eligible rule pool := by
  obtain ⟨valid, feasible, rfl⟩ := resolveDraw_eq_ok.mp resolved
  obtain ⟨count, _, counted⟩ := valid.pickCount
  have enough := (feasible_iff valid).mp feasible
  rw [counted, JsDouble.lt_finite, not_lt, Nat.cast_le] at enough
  have shuffled := shuffleWith_perm (eligible rule pool) rng
  rw [counted, sliceTo_natCast]
  refine ⟨?_, ?_, ?_⟩
  · rw [List.length_take, shuffled.length_eq, Nat.min_eq_left enough]
  · have distinct := (shuffled.map DrawCandidate.questionVersionId).nodup_iff.mpr nodup_eligible
    exact distinct.sublist ((List.take_sublist _ _).map _)
  · intro row inside
    exact shuffled.mem_iff.mp (List.mem_of_mem_take inside)

end Eligible

/-! ### The draw in memory is the draw -/

section InMemory

variable {rule : SectionRule}

variable (rule) in
theorem pushMatched_spec {before arrays : Arrays DrawCandidate} {matched : Nat}
    (kept : before.Kept arrays) (new : before.size ≤ matched) (there : matched < arrays.size)
    (seen : List VersionId) (entries : List DrawCandidate) :
    before.Kept (pushMatched rule matched seen entries arrays) ∧
      (pushMatched rule matched seen entries arrays).size = arrays.size ∧
      (pushMatched rule matched seen entries arrays).contents matched =
        arrays.contents matched ++ matchedFrom rule seen entries := by
  induction entries generalizing seen arrays with
  | nil => exact ⟨kept, rfl, (List.append_nil _).symm⟩
  | cons entry rest inductionHypothesis =>
      unfold pushMatched matchedFrom firstOfEach
      split
      · exact inductionHypothesis kept there seen
      · have still : matched < (arrays.change matched (· ++ [entry])).size := by
          rw [size_change]
          exact there
        obtain ⟨later, same, pushed⟩ :=
          inductionHypothesis (kept_change kept new) still (entry.questionVersionId :: seen)
        refine ⟨later, same.trans size_change, pushed.trans ?_⟩
        rw [contents_change there, List.append_assoc]
        rfl

variable (rule) in
theorem eligibleAt_spec (arrays : Arrays DrawCandidate) (pool : Nat) :
    arrays.Kept (eligibleAt rule pool arrays).2 ∧
      (eligibleAt rule pool arrays).1 < (eligibleAt rule pool arrays).2.size ∧
      (eligibleAt rule pool arrays).2.contents (eligibleAt rule pool arrays).1 =
        eligible rule (arrays.contents pool) := by
  have first : arrays.Kept (arrays.allocate []).2 := kept_allocate []
  have new : arrays.size < (arrays.allocate []).2.size := by
    rw [size_allocate]
    exact Nat.lt_succ_self _
  obtain ⟨kept, size, pushed⟩ :=
    pushMatched_spec rule first (le_refl _) new [] (arrays.contents pool)
  have there : arrays.size < (pushMatched rule arrays.size [] (arrays.contents pool)
      (arrays.allocate []).2).size := by
    rw [size, size_allocate]
    exact Nat.lt_succ_self _
  refine ⟨kept_change kept (le_refl _), ?_, ?_⟩
  · show arrays.size < Arrays.size (Arrays.change _ _ _)
    rw [size_change]
    exact there
  · refine (contents_change there).trans ?_
    rw [pushed, contents_allocate]
    rfl

theorem spliceAll_spec {α : Type} (rng : Nat → JsDouble) {before arrays : Arrays α} {pool out : Nat}
    (kept : before.Kept arrays) (newPool : before.size ≤ pool) (newOut : before.size ≤ out)
    (poolThere : pool < arrays.size) (outThere : out < arrays.size) (apart : pool ≠ out)
    {rounds : Nat} (enough : (arrays.contents pool).length ≤ rounds) (call : Nat) :
    before.Kept (spliceAll rng pool out rounds call arrays) ∧
      (spliceAll rng pool out rounds call arrays).size = arrays.size ∧
      (spliceAll rng pool out rounds call arrays).contents pool = [] ∧
      (spliceAll rng pool out rounds call arrays).contents out =
        arrays.contents out ++ shuffleFrom rng call (arrays.contents pool) := by
  induction rounds generalizing arrays call with
  | zero =>
      have empty := List.length_eq_zero_iff.mp (Nat.le_zero.mp enough)
      refine ⟨kept, rfl, empty, ?_⟩
      show arrays.contents out = _
      rw [empty, shuffleFrom, dif_neg (by simp), List.append_nil]
  | succ rounds inductionHypothesis =>
      unfold spliceAll
      dsimp only
      by_cases filled : 0 < (arrays.contents pool).length
      · rw [if_pos filled, shuffleFrom, dif_pos filled]
        dsimp only
        have inside := boundedIndex_lt (rng call) filled
        set index := boundedIndex (rng call) (arrays.contents pool).length
        generalize afterDef : (arrays.change pool (·.eraseIdx index)).change out
          (· ++ ((arrays.contents pool).drop index).take 1) = after
        have poolAfter : after.contents pool = (arrays.contents pool).eraseIdx index := by
          rw [← afterDef, contents_change_other apart, contents_change poolThere]
        have outAfter : after.contents out =
            arrays.contents out ++ [(arrays.contents pool)[index]] := by
          rw [← afterDef, contents_change (by rwa [size_change]),
            contents_change_other (Ne.symm apart), List.drop_eq_getElem_cons inside,
            List.take_succ_cons, List.take_zero]
        have sizeAfter : after.size = arrays.size := by
          rw [← afterDef, size_change, size_change]
        have keptAfter : before.Kept after := by
          rw [← afterDef]
          exact kept_change (kept_change kept newPool) newOut
        obtain ⟨still, size, emptied, gathered⟩ := inductionHypothesis keptAfter
          (by rwa [sizeAfter]) (by rwa [sizeAfter]) (by
            rw [poolAfter, List.length_eraseIdx_of_lt inside]
            omega) (call + 1)
        refine ⟨still, size.trans sizeAfter, emptied, ?_⟩
        rw [gathered, outAfter, poolAfter, List.append_assoc]
        rfl
      · rw [if_neg filled, shuffleFrom, dif_neg filled, List.append_nil]
        exact ⟨kept, rfl, List.length_eq_zero_iff.mp (Nat.le_zero.mp (Nat.not_lt.mp filled)), rfl⟩

theorem shuffleWithAt_spec {α : Type} (rng : Nat → JsDouble) (arrays : Arrays α) (items : Nat) :
    arrays.Kept (shuffleWithAt items rng arrays).2 ∧
      (shuffleWithAt items rng arrays).2.contents (shuffleWithAt items rng arrays).1 =
        shuffleWith (arrays.contents items) rng := by
  generalize copiedDef : (arrays.allocate (arrays.contents items)).2 = copied
  have size : copied.size = arrays.size + 1 := by rw [← copiedDef, size_allocate]
  have copy : (copied.allocate []).2.contents arrays.size = arrays.contents items := by
    rw [(kept_allocate []).contents_eq (by omega), ← copiedDef, contents_allocate]
  have kept : arrays.Kept (copied.allocate []).2 := by
    rw [← copiedDef]
    exact (kept_allocate _).trans (kept_allocate _)
  have poolThere : arrays.size < (copied.allocate []).2.size := by
    rw [size_allocate]
    omega
  have outThere : copied.size < (copied.allocate []).2.size := by
    rw [size_allocate]
    omega
  have spliced := spliceAll_spec rng kept (le_refl _) (by omega) poolThere outThere (by omega)
    (le_of_eq (congrArg List.length copy)) 0
  rw [copy, contents_allocate, List.nil_append] at spliced
  subst copiedDef
  exact ⟨spliced.1, spliced.2.2.2⟩

/-- The draw in memory serves what the draw serves, and changes no array that was there. -/
theorem resolveDrawAt_spec (arrays : Arrays DrawCandidate) (pool : Nat) (rng : Nat → JsDouble) :
    arrays.Kept (resolveDrawAt rule pool rng arrays).2 ∧
      (resolveDrawAt rule pool rng arrays).1.map (resolveDrawAt rule pool rng arrays).2.contents =
        resolveDraw rule (arrays.contents pool) rng := by
  unfold resolveDrawAt resolveDraw
  cases validateRule rule with
  | some invalid => exact ⟨Kept.refl _, rfl⟩
  | none =>
      obtain ⟨kept, _, picked⟩ := eligibleAt_spec rule arrays pool
      dsimp only
      rw [picked]
      split
      · exact ⟨kept, rfl⟩
      · obtain ⟨keptLater, shuffled⟩ := shuffleWithAt_spec rng (eligibleAt rule pool arrays).2
          (eligibleAt rule pool arrays).1
        rw [picked] at shuffled
        refine ⟨(kept.trans keptLater).trans (kept_allocate _), ?_⟩
        rw [← shuffled]
        exact congrArg Except.ok (contents_allocate _)

end InMemory

/-- A draw succeeds exactly when its rule is valid and enough versions of the pool have a row that
fits. It then serves as many rows as asked, of different versions, each in the pool and fitting.
Whatever comes of it, every array that was there is as it was, the pool among them. -/
theorem resolveDraw_exact (rule : SectionRule) (arrays : Arrays DrawCandidate) {pool : Nat}
    (there : pool < arrays.size) (rng : Nat → JsDouble) :
    ((∃ drawn, (resolveDrawAt rule pool rng arrays).1 = .ok drawn) ↔
        Valid rule ∧ Feasible rule (arrays.contents pool)) ∧
      (∀ drawn, (resolveDrawAt rule pool rng arrays).1 = .ok drawn →
        let served := (resolveDrawAt rule pool rng arrays).2.contents drawn
        rule.pickCount = .finite served.length ∧
          (served.map DrawCandidate.questionVersionId).Nodup ∧
          ∀ row ∈ served, row ∈ arrays.contents pool ∧ Fits rule row) ∧
      (resolveDrawAt rule pool rng arrays).2.contents pool = arrays.contents pool ∧
      ∀ ref < arrays.size,
        (resolveDrawAt rule pool rng arrays).2.contents ref = arrays.contents ref := by
  obtain ⟨kept, same⟩ := resolveDrawAt_spec arrays pool rng
  have served {drawn : Nat} (resolved : (resolveDrawAt rule pool rng arrays).1 = .ok drawn) :
      resolveDraw rule (arrays.contents pool) rng =
        .ok ((resolveDrawAt rule pool rng arrays).2.contents drawn) := by
    rw [← same, resolved]
    rfl
  refine ⟨⟨?_, ?_⟩, ?_, kept.contents_eq there, fun ref present => kept.contents_eq present⟩
  · rintro ⟨drawn, resolved⟩
    have allowed := resolveDraw_eq_ok.mp (served resolved)
    exact ⟨allowed.1, allowed.2.1⟩
  · rintro ⟨valid, feasible⟩
    have pure := resolveDraw_of_feasible valid feasible rng
    rw [← same] at pure
    cases outcome : (resolveDrawAt rule pool rng arrays).1 with
    | ok drawn => exact ⟨drawn, rfl⟩
    | error refusal =>
        rw [outcome] at pure
        cases pure
  · intro drawn resolved
    have valid := (resolveDraw_eq_ok.mp (served resolved)).1
    obtain ⟨count, distinct, eligible⟩ := resolveDraw_serves (served resolved)
    refine ⟨count, distinct, fun row inside => ?_⟩
    have member := mem_eligible (eligible row inside)
    exact ⟨member.1, (matchesRule_iff valid).mp member.2⟩

/-- One question that the candidate has not seen in ninety days. -/
def sampleRule : SectionRule :=
  ⟨.finite 1, [], [], .finite 1, .finite 5, .finite 90, .finite 1⟩

/-- A coding question of difficulty 2. -/
def sampleRow (id : String) (lastSeenDaysAgo : Option JsDouble) : DrawCandidate :=
  ⟨js id, [], .coding, .finite 2, lastSeenDaysAgo⟩

theorem resolveDraw_exact_example :
    (resolveDrawAt sampleRule 0 (fun _ => .nan)
      ⟨[[sampleRow "q2" none, sampleRow "q1" none, sampleRow "q2" none]]⟩).2.contents 0 =
        [sampleRow "q2" none, sampleRow "q1" none, sampleRow "q2" none] :=
  (resolveDraw_exact sampleRule ⟨[[sampleRow "q2" none, sampleRow "q1" none,
    sampleRow "q2" none]]⟩ (by decide : 0 < 1) (fun _ => .nan)).2.2.1

end Unchecked

end Assaybank.Domain
