import Assaybank.Bank.Exported
import Assaybank.Domain.Compose
import Assaybank.Library.OrderedMap

/-!
Owns what the bank can offer a rule, as its three readers count it: the coverage report
(`packages/db/src/taxonomy.ts`, `getJobRoleCoverage`), the plan (`packages/db/src/assessments.ts`,
`countAvailable`) and the draw's own filter.

Contract: the three count the same questions (`eligibility_agrees`). The order of the report's rows
is left out.
-/

namespace Assaybank.Bank

open Assaybank.Runtime Assaybank.Library Assaybank.Contracts Assaybank.Domain Assaybank.Db

/-! ### The tables -/

/-- The rows of `question_skills`. -/
def BankState.questionSkills (bank : BankState) : List (QuestionId × QuestionSkill) :=
  bank.questions.flatMap fun question => question.2.skills.map fun tag => (question.1, tag)

/-- The rows of `question_versions`. -/
def BankState.questionVersions (bank : BankState) : List VersionRow :=
  bank.questions.flatMap fun question => question.2.versions

/-- `status = 'published' AND archived_at IS NULL`. -/
def isOffered (question : QuestionRows) : Bool :=
  question.status == .published && question.archivedAt.isNone

/-- `BETWEEN low AND high`. -/
def inBand (low high : Int) (version : VersionRow) : Bool :=
  decide (low ≤ version.content.difficulty) && decide (version.content.difficulty ≤ high)

/-! ### The plan's count -/

/-- What makes a question eligible for one rule. No kind is no restriction. -/
structure AvailabilityFilter where
  skillId : SkillId
  kinds : List JsString
  minDifficulty : Int
  maxDifficulty : Int

/-- `q.id` of the joined rows. -/
def availableRows (bank : BankState) (filter : AvailabilityFilter) : List QuestionId :=
  (bank.questionSkills.filter fun qs => qs.2.skillId == filter.skillId).flatMap fun qs =>
    (bank.questions.filter fun q => q.1 == qs.1 && isOffered q.2).flatMap fun q =>
      (bank.questionVersions.filter fun qv =>
        q.2.currentVersionId == some qv.id &&
          inBand filter.minDifficulty filter.maxDifficulty qv &&
          (filter.kinds.isEmpty || filter.kinds.contains (js q.2.kind.name))).map fun _ => q.1

def countAvailable (bank : BankState) (filter : AvailabilityFilter) : Nat :=
  (distinct (availableRows bank filter)).length

/-! ### The coverage report -/

/-- `LEFT JOIN`: a row without a match stands beside nulls. -/
def leftJoin {α : Type} (found : List α) : List (Option α) :=
  if found.isEmpty then [none] else found.map some

theorem some_mem_leftJoin {α : Type} {found : List α} {a : α} :
    some a ∈ leftJoin found ↔ a ∈ found := by
  cases found with
  | nil => simp [leftJoin]
  | cons first rest => simp [leftJoin]

/-- What the report is grouped by. -/
structure CoverageKey where
  skillId : SkillId
  skillKey : JsString
  skillName : JsString
  isRequired : Bool
  weight : Decimal
  minDifficulty : Option Int
  maxDifficulty : Option Int
deriving DecidableEq

structure CoverageRow extends CoverageKey where
  inBand : Nat
  published : Nat
  byDifficulty : List (Int × Nat)

/-- A row before it is grouped: its key, `q` and `qv`. -/
structure CoverageJoin where
  key : CoverageKey
  question : Option (QuestionId × QuestionRows)
  version : Option VersionRow

def coverageKey (requirement : JobRoleSkill) (skill : SkillRow) : CoverageKey :=
  ⟨skill.id, skill.key, skill.name, requirement.isRequired, requirement.weight,
    requirement.minDifficulty, requirement.maxDifficulty⟩

/-- The requirements of a role, each with its skill. -/
def roleRequirements (bank : BankState) (jobRoleSkills : List JobRoleSkill) (jobRoleId : Uuid) :
    List CoverageKey :=
  (jobRoleSkills.filter fun jrs => jrs.jobRoleId == jobRoleId).flatMap fun jrs =>
    (bank.skills.filter fun s => s.id == jrs.skillId).map fun s => coverageKey jrs s

def coverageRows (bank : BankState) (jobRoleSkills : List JobRoleSkill) (jobRoleId : Uuid) :
    List CoverageJoin :=
  (roleRequirements bank jobRoleSkills jobRoleId).flatMap fun key =>
    (leftJoin (bank.questionSkills.filter fun qs => qs.2.skillId == key.skillId)).flatMap fun qs =>
      (leftJoin (bank.questions.filter fun q =>
        qs.any (fun qs => q.1 == qs.1) && isOffered q.2)).flatMap fun q =>
        (leftJoin (bank.questionVersions.filter fun qv =>
          q.any fun q => q.2.currentVersionId == some qv.id)).map fun qv => ⟨key, q, qv⟩

/-- `count(DISTINCT q.id) FILTER (WHERE …)`, a null being neither counted nor in any band. -/
def countQuestions (rows : List CoverageJoin) (counted : Option VersionRow → Bool) : Nat :=
  (distinct ((rows.filter fun row => counted row.version).filterMap fun row =>
    row.question.map Prod.fst)).length

def coverageRow (rows : List CoverageJoin) (key : CoverageKey) : CoverageRow where
  toCoverageKey := key
  inBand := countQuestions rows fun version =>
    version.any (inBand (key.minDifficulty.getD 1) (key.maxDifficulty.getD 5))
  published := countQuestions rows fun _ => true
  byDifficulty := [1, 2, 3, 4, 5].map fun difficulty =>
    (difficulty, countQuestions rows fun version =>
      version.any fun version => version.content.difficulty == difficulty)

def getJobRoleCoverage (bank : BankState) (jobRoleSkills : List JobRoleSkill) (jobRoleId : Uuid) :
    List CoverageRow :=
  let rows := coverageRows bank jobRoleSkills jobRoleId
  (distinct (rows.map CoverageJoin.key)).map fun key =>
    coverageRow (rows.filter fun row => row.key = key) key

/-! ### The composition's view of a role -/

/-- The skill of a requirement, as `roleAndSkills` hands it to the composer. -/
def roleSkill (key : CoverageKey) : RoleSkill :=
  ⟨key.skillId, key.skillName, key.weight, key.minDifficulty, key.maxDifficulty, key.isRequired⟩

def getJobRoleSkills (bank : BankState) (jobRoleSkills : List JobRoleSkill) (jobRoleId : Uuid) :
    List RoleSkill :=
  (roleRequirements bank jobRoleSkills jobRoleId).map roleSkill

/-- The filter a plan asks the bank with for one rule: that of its first skill. -/
def availabilityFilter (skillId : SkillId) (rule : SectionRule) : AvailabilityFilter :=
  ⟨skillId, rule.kinds.map fun kind => js kind.name, rule.minDifficulty, rule.maxDifficulty⟩

/-! ### The pool -/

/-- A question on offer with the version it is served in. -/
structure Offer where
  questionId : QuestionId
  question : QuestionRows
  version : VersionRow

/-- The questions that are published and not archived, with their current published version. -/
def offers (bank : BankState) : List Offer :=
  bank.questions.filterMap fun question =>
    if isOffered question.2 then
      (question.2.currentVersion.filter VersionRow.isPublished).map fun version =>
        ⟨question.1, question.2, version⟩
    else none

/-- What a draw knows of an offer, for a candidate who has seen some of them. -/
def Offer.candidate (lastSeen : VersionId → Option Int) (offer : Offer) : DrawCandidate where
  questionVersionId := offer.version.id
  skillIds := offer.question.skills.map QuestionSkill.skillId
  kind := offer.question.kind
  difficulty := offer.version.content.difficulty
  lastSeenDaysAgo := lastSeen offer.version.id

def drawPool (bank : BankState) (lastSeen : VersionId → Option Int) : List DrawCandidate :=
  (offers bank).map (Offer.candidate lastSeen)

/-- What the tables' keys and the writers of the bank keep. -/
structure LegalBank (bank : BankState) : Prop where
  questionIds : (bank.questions.map Prod.fst).Nodup
  versionIds : (bank.questionVersions.map VersionRow.id).Nodup
  sound : ∀ question ∈ bank.questions, Sound question.2

/-! ### The report and the plan -/

section Coverage

variable {bank : BankState} {jobRoleSkills : List JobRoleSkill} {jobRoleId : Uuid}

/-- The question of an available row is on offer, tagged, and in the band by its current version. -/
theorem mem_availableRows {filter : AvailabilityFilter} {id : QuestionId} :
    id ∈ availableRows bank filter ↔
      ∃ qs ∈ bank.questionSkills, qs.2.skillId = filter.skillId ∧
        ∃ q ∈ bank.questions, q.1 = qs.1 ∧ isOffered q.2 = true ∧
          ∃ qv ∈ bank.questionVersions, q.2.currentVersionId = some qv.id ∧
            inBand filter.minDifficulty filter.maxDifficulty qv = true ∧
            (filter.kinds = [] ∨ js q.2.kind.name ∈ filter.kinds) ∧ q.1 = id := by
  unfold availableRows
  simp only [List.mem_flatMap, List.mem_filter, List.mem_map, Bool.and_eq_true, beq_iff_eq,
    Bool.or_eq_true, List.isEmpty_iff, List.contains_iff_mem]
  constructor
  · rintro ⟨qs, ⟨tagged, skill⟩, q, ⟨asked, same, offered⟩, qv, ⟨stored, ⟨current, band⟩, kind⟩, here⟩
    exact ⟨qs, tagged, skill, q, asked, same, offered, qv, stored, current, band, kind, here⟩
  · rintro ⟨qs, tagged, skill, q, asked, same, offered, qv, stored, current, band, kind, here⟩
    exact ⟨qs, ⟨tagged, skill⟩, q, ⟨asked, same, offered⟩, qv, ⟨stored, ⟨current, band⟩, kind⟩, here⟩

/-- A joined row that reaches a version: the tag, the question and the version it stands for. -/
theorem mem_coverageRows {key : CoverageKey} {question : QuestionId × QuestionRows}
    {version : VersionRow} :
    (⟨key, some question, some version⟩ : CoverageJoin) ∈
        coverageRows bank jobRoleSkills jobRoleId ↔
      key ∈ roleRequirements bank jobRoleSkills jobRoleId ∧
        ∃ qs ∈ bank.questionSkills, qs.2.skillId = key.skillId ∧
          question ∈ bank.questions ∧ question.1 = qs.1 ∧ isOffered question.2 = true ∧
          version ∈ bank.questionVersions ∧ question.2.currentVersionId = some version.id := by
  unfold coverageRows
  simp only [List.mem_flatMap, List.mem_map]
  constructor
  · rintro ⟨_, required, tag, tagged, found, joined, qv, matched, same⟩
    cases same
    have asked := List.mem_filter.mp (some_mem_leftJoin.mp joined)
    have stored := List.mem_filter.mp (some_mem_leftJoin.mp matched)
    rw [Bool.and_eq_true] at asked
    cases tag with
    | none => cases asked.2.1
    | some qs =>
        have skill := List.mem_filter.mp (some_mem_leftJoin.mp tagged)
        exact ⟨required, qs, skill.1, beq_iff_eq.mp skill.2, asked.1, beq_iff_eq.mp asked.2.1,
          asked.2.2, stored.1, beq_iff_eq.mp stored.2⟩
  · rintro ⟨required, qs, tagged, skill, asked, same, offered, stored, current⟩
    refine ⟨key, required, some qs, ?_, some question, ?_, some version, ?_, rfl⟩
    · exact some_mem_leftJoin.mpr (List.mem_filter.mpr ⟨tagged, beq_iff_eq.mpr skill⟩)
    · apply some_mem_leftJoin.mpr
      refine List.mem_filter.mpr ⟨asked, ?_⟩
      rw [Bool.and_eq_true]
      exact ⟨beq_iff_eq.mpr same, offered⟩
    · exact some_mem_leftJoin.mpr (List.mem_filter.mpr ⟨stored, beq_iff_eq.mpr current⟩)

private theorem leftJoin_ne_nil {α : Type} (found : List α) : leftJoin found ≠ [] := by
  cases found with
  | nil => exact List.cons_ne_nil _ _
  | cons first rest => exact List.cons_ne_nil _ _

/-- A requirement without a question keeps its row. -/
theorem key_mem_coverageRows {key : CoverageKey}
    (required : key ∈ roleRequirements bank jobRoleSkills jobRoleId) :
    key ∈ (coverageRows bank jobRoleSkills jobRoleId).map CoverageJoin.key := by
  obtain ⟨qs, tagged⟩ := List.exists_mem_of_ne_nil _ (leftJoin_ne_nil
    (bank.questionSkills.filter fun qs => qs.2.skillId == key.skillId))
  obtain ⟨q, asked⟩ := List.exists_mem_of_ne_nil _ (leftJoin_ne_nil
    (bank.questions.filter fun q => qs.any (fun qs => q.1 == qs.1) && isOffered q.2))
  obtain ⟨qv, stored⟩ := List.exists_mem_of_ne_nil _ (leftJoin_ne_nil
    (bank.questionVersions.filter fun qv => q.any fun q => q.2.currentVersionId == some qv.id))
  refine List.mem_map.mpr ⟨⟨key, q, qv⟩, ?_, rfl⟩
  refine List.mem_flatMap.mpr ⟨key, required, List.mem_flatMap.mpr ⟨qs, tagged, ?_⟩⟩
  exact List.mem_flatMap.mpr ⟨q, asked, List.mem_map.mpr ⟨qv, stored, rfl⟩⟩

/-- The filter of a requirement without a kind. -/
def requirementFilter (key : CoverageKey) : AvailabilityFilter :=
  ⟨key.skillId, [], key.minDifficulty.getD 1, key.maxDifficulty.getD 5⟩

/-- What the report counts in a requirement's band is what the plan counts under its filter. -/
theorem inBand_eq_countAvailable {row : CoverageRow}
    (inside : row ∈ getJobRoleCoverage bank jobRoleSkills jobRoleId) :
    row.inBand = countAvailable bank (requirementFilter row.toCoverageKey) := by
  obtain ⟨key, grouped, rfl⟩ := List.mem_map.mp inside
  obtain ⟨start, joined, same⟩ := List.mem_map.mp (mem_distinct.mp grouped)
  apply length_distinct_congr
  intro id
  rw [mem_availableRows]
  constructor
  · intro counted
    obtain ⟨⟨other, question, version⟩, member, identified⟩ := List.mem_filterMap.mp counted
    obtain ⟨⟨here, keyed⟩, banded⟩ := List.mem_filter.mp member |>.imp_left List.mem_filter.mp
    have sameKey : other = key := of_decide_eq_true keyed
    subst sameKey
    cases question with
    | none => cases identified
    | some question =>
        cases version with
        | none => cases banded
        | some version =>
            obtain ⟨_, qs, tagged, skill, asked, sameId, offered, stored, current⟩ :=
              mem_coverageRows.mp here
            exact ⟨qs, tagged, skill, question, asked, sameId, offered, version, stored, current,
              banded, .inl rfl, Option.some.inj identified⟩
  · rintro ⟨qs, tagged, skill, question, asked, sameId, offered, version, stored, current, banded, _,
      rfl⟩
    have required : key ∈ roleRequirements bank jobRoleSkills jobRoleId := by
      rw [← same]
      obtain ⟨_, required, _, _, _, _, _, _, made⟩ := by
        simpa only [coverageRows, List.mem_flatMap, List.mem_map] using joined
      rw [← made]
      exact required
    refine List.mem_filterMap.mpr ⟨⟨key, some question, some version⟩, ?_, rfl⟩
    refine List.mem_filter.mpr ⟨List.mem_filter.mpr ⟨?_, decide_eq_true rfl⟩, banded⟩
    exact mem_coverageRows.mpr
      ⟨required, qs, tagged, skill, asked, sameId, offered, stored, current⟩

end Coverage

/-! ### The plan and the draw -/

section Offers

variable {bank : BankState}

private theorem mem_questionVersions {question : QuestionId × QuestionRows}
    (asked : question ∈ bank.questions) {version : VersionRow}
    (own : version ∈ question.2.versions) : version ∈ bank.questionVersions :=
  List.mem_flatMap.mpr ⟨question, asked, own⟩

private theorem currentVersion_of_named {question : QuestionRows} (sound : Sound question)
    {version : VersionRow} (inside : version ∈ question.versions)
    (pointed : question.currentVersionId = some version.id) :
    question.currentVersion = some version := by
  unfold QuestionRows.currentVersion
  rw [pointed, Option.bind_some]
  cases found : question.versions.find? fun other => other.id == version.id with
  | none => exact absurd (beq_self_eq_true version.id) (List.find?_eq_none.mp found version inside)
  | some other =>
      have same : other.id = version.id := by simpa using List.find?_some found
      rw [sound.identified (List.mem_of_find?_eq_some found) inside same]

/-- The row a current pointer joins is the question's own, and it is published. -/
theorem LegalBank.current (legal : LegalBank bank) {question : QuestionId × QuestionRows}
    (asked : question ∈ bank.questions) {version : VersionRow}
    (stored : version ∈ bank.questionVersions)
    (pointed : question.2.currentVersionId = some version.id) :
    question.2.currentVersion = some version ∧ version.isPublished = true := by
  have sound := legal.sound question asked
  obtain ⟨own, inside, named, published⟩ := sound.named pointed
  have same : own = version :=
    List.inj_on_of_nodup_map legal.versionIds (mem_questionVersions asked inside) stored named
  subst same
  exact ⟨currentVersion_of_named sound inside pointed, published⟩

theorem mem_offers {offer : Offer} :
    offer ∈ offers bank ↔ (offer.questionId, offer.question) ∈ bank.questions ∧
      isOffered offer.question = true ∧ offer.question.currentVersion = some offer.version ∧
      offer.version.isPublished = true := by
  unfold offers
  rw [List.mem_filterMap]
  constructor
  · rintro ⟨question, asked, made⟩
    split at made
    · rename_i offered
      obtain ⟨version, served, rfl⟩ := Option.map_eq_some_iff.mp made
      obtain ⟨current, published⟩ := Option.filter_eq_some_iff.mp served
      exact ⟨asked, offered, current, published⟩
    · cases made
  · rintro ⟨asked, offered, current, published⟩
    refine ⟨_, asked, ?_⟩
    rw [if_pos offered, current, Option.filter_some, if_pos published]
    rfl

/-- An offer of the tag, the band and the kinds a filter names. -/
def Asked (filter : AvailabilityFilter) (offer : Offer) : Prop :=
  (∃ tag ∈ offer.question.skills, tag.skillId = filter.skillId) ∧
    inBand filter.minDifficulty filter.maxDifficulty offer.version = true ∧
    (filter.kinds = [] ∨ js offer.question.kind.name ∈ filter.kinds)

instance (filter : AvailabilityFilter) : DecidablePred (Asked filter) :=
  fun _ => inferInstanceAs (Decidable (_ ∧ _))

private theorem LegalBank.same (legal : LegalBank bank) {left right : QuestionId × QuestionRows}
    (first : left ∈ bank.questions) (second : right ∈ bank.questions) (id : left.1 = right.1) :
    left = right := List.inj_on_of_nodup_map legal.questionIds first second id

/-- The plan counts the offers its filter asks for. -/
theorem mem_availableRows_iff (legal : LegalBank bank) {filter : AvailabilityFilter}
    {id : QuestionId} :
    id ∈ availableRows bank filter ↔
      ∃ offer ∈ offers bank, Asked filter offer ∧ offer.questionId = id := by
  rw [mem_availableRows]
  constructor
  · rintro ⟨⟨_, tag⟩, tagged, skill, question, asked, sameId, offered, version, stored, pointed, band,
      kind, rfl⟩
    obtain ⟨current, published⟩ := legal.current asked stored pointed
    obtain ⟨owner, owned, own⟩ := List.mem_flatMap.mp tagged
    obtain ⟨tag, inside, made⟩ := List.mem_map.mp own
    cases made
    cases legal.same asked owned sameId
    exact ⟨⟨question.1, question.2, version⟩, mem_offers.mpr ⟨asked, offered, current, published⟩,
      ⟨⟨tag, inside, skill⟩, band, kind⟩, rfl⟩
  · rintro ⟨offer, inside, ⟨⟨tag, tagged, skill⟩, band, kind⟩, rfl⟩
    obtain ⟨asked, offered, current, published⟩ := mem_offers.mp inside
    obtain ⟨own, pointed⟩ := mem_of_currentVersion current
    refine ⟨(offer.questionId, tag), ?_, skill, (offer.questionId, offer.question), asked, rfl,
      offered, offer.version, mem_questionVersions asked own, pointed, band, kind, rfl⟩
    exact List.mem_flatMap.mpr ⟨_, asked, List.mem_map.mpr ⟨tag, tagged, rfl⟩⟩

private theorem questionIds_offers : List.Sublist ((offers bank).map Offer.questionId)
    (bank.questions.map Prod.fst) := by
  unfold offers
  induction bank.questions with
  | nil => exact List.Sublist.slnil
  | cons question rest inductionHypothesis =>
      rw [List.filterMap_cons, List.map_cons]
      split
      · exact inductionHypothesis.cons _
      · rename_i offer made
        split at made
        · obtain ⟨version, _, rfl⟩ := Option.map_eq_some_iff.mp made
          exact inductionHypothesis.cons_cons _
        · cases made

private theorem versionIds_offers : List.Sublist ((offers bank).map fun offer => offer.version.id)
    (bank.questionVersions.map VersionRow.id) := by
  unfold offers BankState.questionVersions
  induction bank.questions with
  | nil => exact List.Sublist.slnil
  | cons question rest inductionHypothesis =>
      rw [List.filterMap_cons, List.flatMap_cons, List.map_append]
      split
      · exact inductionHypothesis.trans (List.sublist_append_right _ _)
      · rename_i offer made
        split at made
        · obtain ⟨version, served, rfl⟩ := Option.map_eq_some_iff.mp made
          have own := (mem_of_currentVersion (Option.filter_eq_some_iff.mp served).1).1
          have first : List.Sublist [version.id] (question.2.versions.map VersionRow.id) :=
            List.singleton_sublist.mpr (List.mem_map_of_mem own)
          exact first.append inductionHypothesis
        · cases made

/-- How many offers a filter asks for is what the plan answers. -/
theorem countAvailable_eq (legal : LegalBank bank) (filter : AvailabilityFilter) :
    countAvailable bank filter = ((offers bank).filter fun offer => Asked filter offer).length := by
  have sameLength : (((offers bank).filter fun offer => Asked filter offer).map
      Offer.questionId).length = ((offers bank).filter fun offer => Asked filter offer).length :=
    List.length_map _
  rw [← sameLength]
  apply length_distinct_of_nodup
  · exact (legal.questionIds.sublist questionIds_offers).sublist (List.filter_sublist.map _)
  · intro id
    rw [mem_availableRows_iff legal, List.mem_map]
    constructor
    · rintro ⟨offer, inside, asked, same⟩
      exact ⟨offer, List.mem_filter.mpr ⟨inside, decide_eq_true asked⟩, same⟩
    · rintro ⟨offer, inside, same⟩
      obtain ⟨member, asked⟩ := List.mem_filter.mp inside
      exact ⟨offer, member, of_decide_eq_true asked, same⟩

/-- How many versions a draw keeps of the pool. -/
theorem length_eligible (legal : LegalBank bank) (rule : SectionRule)
    (lastSeen : VersionId → Option Int) :
    (eligible rule (drawPool bank lastSeen)).length =
      ((offers bank).filter fun offer => matchesRule rule (offer.candidate lastSeen)).length := by
  have once : (((offers bank).filter fun offer => matchesRule rule (offer.candidate lastSeen)).map
      fun offer => offer.version.id).Nodup :=
    (legal.versionIds.sublist versionIds_offers).sublist (List.filter_sublist.map _)
  have perm := (List.perm_ext_iff_of_nodup (nodup_eligible (drawPool bank lastSeen)) once).mpr (by
    intro id
    rw [eligible_ids, List.mem_map]
    constructor
    · rintro ⟨entry, inside, fits, rfl⟩
      obtain ⟨offer, member, rfl⟩ := List.mem_map.mp inside
      exact ⟨offer, List.mem_filter.mpr ⟨member, fits⟩, rfl⟩
    · rintro ⟨offer, inside, rfl⟩
      obtain ⟨member, fits⟩ := List.mem_filter.mp inside
      exact ⟨_, List.mem_map_of_mem member, fits, rfl⟩)
  rw [← List.length_map Unchecked.DrawCandidate.questionVersionId, perm.length_eq, List.length_map]

private theorem name_injective : Function.Injective fun kind : QuestionKind => js kind.name := by
  intro left right same
  cases left <;> cases right <;> first | rfl | exact absurd same (by decide)

/-- Where nothing is excluded as seen, a rule of one skill matches what its filter asks for. -/
theorem matchesRule_iff_asked {rule : SectionRule} {skillId : SkillId}
    (skill : rule.skillIds = [skillId]) {lastSeen : VersionId → Option Int}
    (unseen : rule.excludeSeenDays ≤ 0 ∨ ∀ version, lastSeen version = none) (offer : Offer) :
    matchesRule rule (offer.candidate lastSeen) = true ↔
      Asked (availabilityFilter skillId rule) offer := by
  have kinds : (rule.kinds.map fun kind => js kind.name) = [] ∨
      js offer.question.kind.name ∈ (rule.kinds.map fun kind => js kind.name) ↔
      rule.kinds = [] ∨ offer.question.kind ∈ rule.kinds := by
    rw [List.map_eq_nil_iff, List.mem_map_of_injective name_injective]
  have tagged : (∃ skill ∈ offer.question.skills.map QuestionSkill.skillId, skill ∈ [skillId]) ↔
      ∃ tag ∈ offer.question.skills, tag.skillId = skillId := by
    simp only [List.mem_map, List.mem_singleton, exists_exists_and_eq_and]
  rw [matchesRule_iff, skill]
  unfold Asked availabilityFilter inBand Offer.candidate
  rw [kinds, tagged, Bool.and_eq_true, decide_eq_true_iff, decide_eq_true_iff]
  constructor
  · rintro ⟨band, kind, untagged | tag, _⟩
    · cases untagged
    · exact ⟨tag, band, kind⟩
  · rintro ⟨tag, band, kind⟩
    refine ⟨band, kind, .inr tag, unseen.imp_right fun nobody days seen => ?_⟩
    rw [nobody] at seen
    cases seen

/-- What the plan counts for a rule of one skill is what the draw keeps for it. -/
theorem countAvailable_eq_eligible (legal : LegalBank bank) {rule : SectionRule} {skillId : SkillId}
    (skill : rule.skillIds = [skillId]) {lastSeen : VersionId → Option Int}
    (unseen : rule.excludeSeenDays ≤ 0 ∨ ∀ version, lastSeen version = none) :
    countAvailable bank (availabilityFilter skillId rule) =
      (eligible rule (drawPool bank lastSeen)).length := by
  rw [countAvailable_eq legal, length_eligible legal]
  congr 1
  apply List.filter_congr
  intro offer _
  rw [← Bool.decide_coe (matchesRule rule (offer.candidate lastSeen)), decide_eq_decide]
  exact (matchesRule_iff_asked skill unseen offer).symm

end Offers

/-! ### The banks an organisation can come to -/

section Reached

private theorem questionIds_store {bank : BankState} (id : QuestionId) (row : Option QuestionRows)
    (distinct : (bank.questions.map Prod.fst).Nodup) :
    ((bank.store id row).questions.map Prod.fst).Nodup := by
  cases row with
  | none => exact distinct
  | some question =>
      show ((if (bank.question? id).isSome then
        bank.questions.map fun entry => if entry.1 = id then (id, question) else entry
        else bank.questions ++ [(id, question)]).map Prod.fst).Nodup
      split
      · have kept : (bank.questions.map fun entry =>
            if entry.1 = id then (id, question) else entry).map Prod.fst =
            bank.questions.map Prod.fst := by
          rw [List.map_map]
          apply List.map_congr_left
          intro entry _
          show (if entry.1 = id then (id, question) else entry).1 = entry.1
          split
          · rename_i here
            exact here.symm
          · rfl
        rw [kept]
        exact distinct
      · rename_i unknown
        have absent : id ∉ bank.questions.map Prod.fst := by
          intro present
          obtain ⟨entry, inside, same⟩ := List.mem_map.mp present
          apply unknown
          rw [BankState.question?, Option.isSome_map, List.find?_isSome]
          exact ⟨entry, inside, beq_iff_eq.mpr same⟩
        rw [List.map_append, List.nodup_append]
        refine ⟨distinct, List.nodup_singleton id, ?_⟩
        intro other inside last found
        cases List.mem_singleton.mp found
        rintro rfl
        exact absent inside

private theorem questionIds_apply {bank : BankState} (operation : BankOperation)
    (distinct : (bank.questions.map Prod.fst).Nodup) :
    ((bank.apply operation).questions.map Prod.fst).Nodup := by
  cases operation with
  | write id request =>
      unfold BankState.apply
      simp only
      split
      · exact questionIds_store id _ distinct
      · exact distinct
  | createSkill body id =>
      show (((createSkill bank body id).toOption.getD bank).questions.map Prod.fst).Nodup
      cases created : createSkill bank body id with
      | error refusal => exact distinct
      | ok after =>
          obtain ⟨skill, _, rfl⟩ := createSkill_ok created
          exact distinct
  | mergeSkills sourceId body =>
      show (((mergeSkills bank sourceId body).toOption.getD bank).questions.map Prod.fst).Nodup
      cases merged : mergeSkills bank sourceId body with
      | error refusal => exact distinct
      | ok after =>
          obtain ⟨_, targetId, rewritten⟩ := mergeSkills_ok merged
          show (after.questions.map Prod.fst).Nodup
          rw [rewritten, List.map_map]
          exact distinct

private theorem questionIds_run (operations : List BankOperation) {bank : BankState}
    (distinct : (bank.questions.map Prod.fst).Nodup) :
    ((operations.foldl BankState.apply bank).questions.map Prod.fst).Nodup := by
  induction operations generalizing bank with
  | nil => exact distinct
  | cons operation rest inductionHypothesis =>
      exact inductionHypothesis (questionIds_apply operation distinct)

/-- Whatever an organisation does to its bank, the bank is legal. What is left to the database is
the primary key of the versions. -/
theorem legalBank_run (mint : JsString → SkillId) (operations : List BankOperation)
    (minted : ((operations.foldl BankState.apply (seededBank mint)).questionVersions.map
      VersionRow.id).Nodup) :
    LegalBank (operations.foldl BankState.apply (seededBank mint)) where
  questionIds := questionIds_run operations List.nodup_nil
  versionIds := minted
  sound question inside := ((exportable_run mint operations).questions question inside).sound

end Reached

/-! ### Agreement -/

/-- The rule composed for a requirement. -/
def requirementRule (options : ComposeOptions) (key : CoverageKey) (extra : Int) : SectionRule :=
  (composedRule options (roleSkill key) extra).toSectionRule

/-- The report and the plan count the same questions for every requirement of a role, and so does the
draw where nothing is excluded as seen. Under a kind filter the plan and the draw still do. -/
theorem eligibility_agrees {bank : BankState} (legal : LegalBank bank)
    (jobRoleSkills : List JobRoleSkill) (lastSeen : VersionId → Option Int) :
    (∀ requirement ∈ jobRoleSkills, ∀ skill ∈ bank.skills, skill.id = requirement.skillId →
      ∃ row ∈ getJobRoleCoverage bank jobRoleSkills requirement.jobRoleId,
        row.toCoverageKey = coverageKey requirement skill) ∧
    (∀ jobRoleId, ∀ row ∈ getJobRoleCoverage bank jobRoleSkills jobRoleId,
      ∀ (options : ComposeOptions) (extra : Int), options.kinds.getD [] = [] →
        let rule := requirementRule options row.toCoverageKey extra
        row.inBand = countAvailable bank (availabilityFilter row.skillId rule) ∧
          ((options.excludeSeenDays.getD 0 ≤ 0 ∨ ∀ version, lastSeen version = none) →
            row.inBand = (eligible rule (drawPool bank lastSeen)).length)) ∧
    ∀ (key : CoverageKey) (options : ComposeOptions) (extra : Int),
      (options.excludeSeenDays.getD 0 ≤ 0 ∨ ∀ version, lastSeen version = none) →
      let rule := requirementRule options key extra
      countAvailable bank (availabilityFilter key.skillId rule) =
        (eligible rule (drawPool bank lastSeen)).length := by
  have planned : ∀ (key : CoverageKey) (options : ComposeOptions) (extra : Int),
      (options.excludeSeenDays.getD 0 ≤ 0 ∨ ∀ version, lastSeen version = none) →
      countAvailable bank (availabilityFilter key.skillId (requirementRule options key extra)) =
        (eligible (requirementRule options key extra) (drawPool bank lastSeen)).length :=
    fun _ _ _ unseen => countAvailable_eq_eligible legal rfl unseen
  refine ⟨?_, ?_, planned⟩
  · intro requirement required skill known same
    have listed : coverageKey requirement skill ∈
        roleRequirements bank jobRoleSkills requirement.jobRoleId := by
      refine List.mem_flatMap.mpr ⟨requirement, ?_, List.mem_map.mpr ⟨skill, ?_, rfl⟩⟩
      · exact List.mem_filter.mpr ⟨required, beq_self_eq_true _⟩
      · exact List.mem_filter.mpr ⟨known, beq_iff_eq.mpr same⟩
    exact ⟨_, List.mem_map.mpr ⟨_, mem_distinct.mpr (key_mem_coverageRows listed), rfl⟩, rfl⟩
  · intro jobRoleId row inside options extra unrestricted
    have counted : row.inBand = countAvailable bank
        (availabilityFilter row.skillId (requirementRule options row.toCoverageKey extra)) := by
      rw [inBand_eq_countAvailable inside]
      simp only [requirementFilter, availabilityFilter, requirementRule, composedRule, roleSkill,
        unrestricted, List.map_nil]
    exact ⟨counted, fun unseen => counted.trans (planned _ options extra unseen)⟩

/-! ### One question, two skills -/

def sqlSkill : SkillRow :=
  ⟨js "0b54b4fc-0000-4000-8000-000000000001", false, none, js "sql", js "SQL", none⟩

def modellingSkill : SkillRow :=
  ⟨js "0b54b4fc-0000-4000-8000-000000000002", false, none, js "modelling", js "Modelling", none⟩

/-- Two skills of the organisation, and a question tagged with both and published. -/
def tagging : List BankOperation :=
  let question := js "0b54b4fc-0000-4000-8000-000000000004"
  let skill (row : SkillRow) : BankOperation :=
    .createSkill (.object [(js "key", .string row.key), (js "name", .string row.name)]) row.id
  let tag (row : SkillRow) : Value :=
    .object [(js "skill_id", .string row.id), (js "weight", .number 1)]
  [ skill sqlSkill, skill modellingSkill,
    .write question (.postQuestion (.object [(js "kind", .string (js "subjective"))]) 0),
    .write question (.postVersion (versionBody "Explain a join.")
      (js "0b54b4fc-0000-4000-8000-000000000003") 1),
    .write question (.putSkills (.array [tag sqlSkill, tag modellingSkill]) []),
    .write question (.patchQuestion (.object [(js "status", .string (js "review"))]) 2),
    .write question (.postPublish 1 3) ]

def sharedBank : BankState := tagging.foldl BankState.apply (seededBank seedMint)

theorem sharedBank_legal : LegalBank sharedBank := legalBank_run seedMint tagging (by decide +kernel)

def dataRole : Uuid := js "0b54b4fc-0000-4000-8000-000000000005"

/-- A role that requires both skills, at any difficulty. -/
def dataRoleSkills : List JobRoleSkill :=
  [⟨dataRole, sqlSkill.id, 1, none, none, true⟩,
    ⟨dataRole, modellingSkill.id, 1, none, none, true⟩]

/-- The same, with a band for each. -/
def bandedRoleSkills : List JobRoleSkill :=
  [⟨dataRole, sqlSkill.id, 1, some 1, some 2, true⟩,
    ⟨dataRole, modellingSkill.id, 1, some 3, some 5, true⟩]

/-- The requirement of a band the question lies in, and of one it does not; and a filter of its kind,
and of another, for a candidate who has seen it. -/
theorem eligibility_agrees_example :
    (∃ row ∈ getJobRoleCoverage sharedBank bandedRoleSkills dataRole, row.skillId = sqlSkill.id ∧
      row.inBand = 1 ∧ row.inBand = (eligible (requirementRule ⟨2, none, none⟩ row.toCoverageKey 0)
        (drawPool sharedBank fun _ => some 3)).length) ∧
    (∃ row ∈ getJobRoleCoverage sharedBank bandedRoleSkills dataRole,
      row.skillId = modellingSkill.id ∧ row.inBand = 0 ∧
      row.inBand = (eligible (requirementRule ⟨2, none, none⟩ row.toCoverageKey 0)
        (drawPool sharedBank fun _ => some 3)).length) ∧
    ∀ kind ∈ [QuestionKind.subjective, .mcqSingle],
      let rule := requirementRule ⟨2, some [kind], some 0⟩
        (coverageKey ⟨dataRole, sqlSkill.id, 1, some 1, some 2, true⟩ sqlSkill) 0
      countAvailable sharedBank (availabilityFilter sqlSkill.id rule) =
        (eligible rule (drawPool sharedBank fun _ => some 3)).length := by
  obtain ⟨_, counted, planned⟩ :=
    eligibility_agrees sharedBank_legal bandedRoleSkills fun _ => some 3
  have counts : (getJobRoleCoverage sharedBank bandedRoleSkills dataRole).map
      (fun row => (row.skillId, row.inBand)) = [(sqlSkill.id, 1), (modellingSkill.id, 0)] := by
    decide +kernel
  have taken (skillId : SkillId) (count : Nat)
      (listed : (skillId, count) ∈ [(sqlSkill.id, 1), (modellingSkill.id, 0)]) :
      ∃ row ∈ getJobRoleCoverage sharedBank bandedRoleSkills dataRole, row.skillId = skillId ∧
        row.inBand = count ∧ row.inBand = (eligible
          (requirementRule ⟨2, none, none⟩ row.toCoverageKey 0)
          (drawPool sharedBank fun _ => some 3)).length := by
    rw [← counts] at listed
    obtain ⟨row, inside, same⟩ := List.mem_map.mp listed
    cases same
    exact ⟨row, inside, rfl, rfl,
      (counted dataRole row inside ⟨2, none, none⟩ 0 rfl).2 (.inl le_rfl)⟩
  refine ⟨taken _ _ List.mem_cons_self, taken _ _ (List.mem_cons_of_mem _ List.mem_cons_self), ?_⟩
  intro kind _
  exact planned _ ⟨2, some [kind], some 0⟩ 0 (.inl le_rfl)

end Assaybank.Bank
