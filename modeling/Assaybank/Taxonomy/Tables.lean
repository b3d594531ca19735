import Assaybank.Bank.Taxonomy
import Assaybank.Domain.Draw
import Assaybank.Library.ReadCommitted
import Assaybank.Library.References

/-!
Owns the taxonomy of one organisation as tables, and its two writing transactions statement by
statement (`packages/db/src/taxonomy.ts`): `createSkill` and `mergeSkills`, with every table that
refers to a skill.

A row that another transaction is writing is waited for, by the keys of `Key`. The declared
constraints are checked at the commit: a statement that breaks one fails with its whole
transaction, so none of what it wrote is committed either way. The elements of
`section_rules.skill_ids` are under no constraint.
-/

namespace Assaybank.Taxonomy

open Assaybank.Runtime Assaybank.Library Assaybank.Contracts Assaybank.Domain
open Assaybank.Db (QuestionId)
open Assaybank.Bank (SkillRow JobRoleSkill CreateSkillInput noSuchParent parentTooDeep mergeRefused
  fieldRefusal)

/-! ### Rows -/

/-- One row of `question_skills`. -/
structure QuestionTag where
  questionId : QuestionId
  skillId : SkillId
  weight : Decimal
deriving DecidableEq

/-- One row of `section_rules`. -/
structure SectionRuleRow where
  id : Uuid
  rule : SectionRule
deriving DecidableEq

/-- The rows an organisation sees. -/
structure Store where
  skills : List SkillRow
  questionSkills : List QuestionTag
  jobRoleSkills : List JobRoleSkill
  sectionRules : List SectionRuleRow
deriving DecidableEq

def Store.skill? (store : Store) (id : SkillId) : Option SkillRow :=
  store.skills.find? fun skill => skill.id == id

/-- The children of a skill. -/
def Store.children (store : Store) (id : SkillId) : List SkillRow :=
  store.skills.filter fun skill => skill.parentId == some id

/-! ### Writes -/

/-- What a statement does to the tables. An insert of a tag or a requirement does nothing where the
row is there already. A deleted skill takes its tags and requirements with it, and leaves its
children without a parent. -/
inductive Write where
  | skill (row : SkillRow)
  | tag (row : QuestionTag)
  | requirement (row : JobRoleSkill)
  | reparent (child target : SkillId)
  | delete (id : SkillId) (orphans : List SkillId)
deriving DecidableEq

/-- What a transaction holds until it ends: a row, or the place of a row in a unique index. -/
inductive Key where
  | skill (id : SkillId)
  | skillKey (key : JsString)
  | tag (questionId : QuestionId) (skillId : SkillId)
  | requirement (jobRoleId : Uuid) (skillId : SkillId)
deriving DecidableEq

/-- `question_skills`, which a question refers to a skill by. -/
def tagTable : ReferenceTable QuestionTag QuestionId SkillId where
  owner := QuestionTag.questionId
  target := QuestionTag.skillId
  retarget skillId tag := { tag with skillId := skillId }
  owner_retarget _ _ := rfl
  target_retarget _ _ := rfl

/-- `job_role_skills`, which a role refers to a skill by. -/
def requirementTable : ReferenceTable JobRoleSkill Uuid SkillId where
  owner := JobRoleSkill.jobRoleId
  target := JobRoleSkill.skillId
  retarget skillId row := { row with skillId := skillId }
  owner_retarget _ _ := rfl
  target_retarget _ _ := rfl

def Write.apply (store : Store) : Write → Store
  | .skill row => { store with skills := store.skills ++ [row] }
  | .tag row =>
      { store with questionSkills := insertAbsent tagTable.key store.questionSkills row }
  | .requirement row =>
      { store with jobRoleSkills := insertAbsent requirementTable.key store.jobRoleSkills row }
  | .reparent child target =>
      { store with
        skills := store.skills.map fun skill =>
          if skill.id = child then { skill with parentId := some target } else skill }
  | .delete id orphans =>
      { store with
        skills := (store.skills.filter fun skill => skill.id ≠ id).map fun skill =>
          if skill.id ∈ orphans then { skill with parentId := none } else skill
        questionSkills := store.questionSkills.filter fun tag => tag.skillId ≠ id
        jobRoleSkills := store.jobRoleSkills.filter fun row => row.skillId ≠ id }

def Write.keys : Write → List Key
  | .skill row => [.skillKey row.key]
  | .tag row => [.tag row.questionId row.skillId]
  | .requirement row => [.requirement row.jobRoleId row.skillId]
  | .reparent child _ => [.skill child]
  | .delete id orphans => .skill id :: orphans.map .skill

/-! ### Constraints -/

/-- The primary keys, the unique columns and the references of the tables. -/
structure Legal (store : Store) : Prop where
  skillIds : (store.skills.map SkillRow.id).Nodup
  ownKeys : ((store.skills.filter fun skill => !skill.isGlobal).map SkillRow.key).Nodup
  tagPairs : (store.questionSkills.map tagTable.key).Nodup
  requirementPairs : (store.jobRoleSkills.map requirementTable.key).Nodup
  parents : ∀ skill ∈ store.skills, ∀ id ∈ skill.parentId, id ∈ store.skills.map SkillRow.id
  tagSkills : ∀ tag ∈ store.questionSkills, tag.skillId ∈ store.skills.map SkillRow.id
  requirementSkills : ∀ row ∈ store.jobRoleSkills, row.skillId ∈ store.skills.map SkillRow.id

instance (store : Store) : Decidable (Legal store) :=
  decidable_of_iff
    ((store.skills.map SkillRow.id).Nodup ∧
      ((store.skills.filter fun skill => !skill.isGlobal).map SkillRow.key).Nodup ∧
      (store.questionSkills.map tagTable.key).Nodup ∧
      (store.jobRoleSkills.map requirementTable.key).Nodup ∧
      (∀ skill ∈ store.skills, ∀ id ∈ skill.parentId, id ∈ store.skills.map SkillRow.id) ∧
      (∀ tag ∈ store.questionSkills, tag.skillId ∈ store.skills.map SkillRow.id) ∧
      ∀ row ∈ store.jobRoleSkills, row.skillId ∈ store.skills.map SkillRow.id)
    ⟨fun ⟨a, b, c, d, e, f, g⟩ => ⟨a, b, c, d, e, f, g⟩,
      fun ⟨a, b, c, d, e, f, g⟩ => ⟨a, b, c, d, e, f, g⟩⟩

def engine : ReadCommitted.Engine Store Write Key where
  apply := Write.apply
  keys := Write.keys
  legal store := decide (Legal store)

/-- A transaction, or a part of one. -/
abbrev SkillTransaction := ReadCommitted.Tx Store Write ApiError

/-! ### Creating -/

/-- Refuses a parent that is not there or is itself a child. -/
def checkParent : Option SkillId → SkillTransaction Unit
  | none => pure ()
  | some parentId => do
      let parent ← .query fun store => store.skill? parentId
      match parent with
      | none => .fail noSuchParent
      | some found => if found.parentId.isSome then .fail parentTooDeep else pure ()

/-- The row of a new skill, whose id the database mints. -/
def newSkill (input : CreateSkillInput) (id : SkillId) : SkillRow :=
  ⟨id, false, input.parentId, input.key, Db.toWellFormed input.name,
    input.category.map Db.toWellFormed⟩

/-- Creates a skill, refusing a third level. -/
def createSkill (input : CreateSkillInput) (id : SkillId) : SkillTransaction SkillRow := do
  checkParent input.parentId
  if !Db.takesText input.name || !input.category.all Db.takesText then .fail .internal
  else .execute fun _ => ([.skill (newSkill input id)], newSkill input id)

/-! ### Merging -/

/-- What `readSkill` answers of a skill. -/
structure SkillFacts where
  isGlobal : Bool
  parentId : Option SkillId
  children : Nat
deriving DecidableEq

def readSkill (id : SkillId) : SkillTransaction (Option SkillFacts) :=
  .query fun store => (store.skill? id).map fun skill =>
    ⟨skill.isGlobal, skill.parentId, (store.children id).length⟩

/-- What refuses a merge of two skills that are there. -/
def checkMerge (sourceId : SkillId) (source target : SkillFacts) : Except ApiError Unit :=
  if source.isGlobal then
    .error (mergeRefused "a global skill is shared by every organisation and cannot be merged away by one. Merge your own duplicate into it instead.")
  else if target.parentId = some sourceId then
    .error (mergeRefused "the target is a child of the skill being merged, and would become its own parent. Merge the child into the parent instead.")
  else if 0 < source.children ∧ target.parentId.isSome then
    .error (mergeRefused "the skill being merged has children, and the target is itself a child: its children would become a third level (ADR-009). Merge into the target’s parent, or re-parent first.")
  else .ok ()

/-- The source's tags on the target, where the question has none. -/
def copyTags (sourceId targetId : SkillId) : SkillTransaction Nat :=
  .execute fun store =>
    let moved := tagTable.copies sourceId targetId store.questionSkills
    (moved.map .tag, moved.length)

/-- The source's requirements on the target, where the role has none. -/
def copyRequirements (sourceId targetId : SkillId) : SkillTransaction Nat :=
  .execute fun store =>
    let moved := requirementTable.copies sourceId targetId store.jobRoleSkills
    (moved.map .requirement, moved.length)

/-- Gives the organisation's own children of the source to the target. -/
def reparentChildren (sourceId targetId : SkillId) : SkillTransaction Nat :=
  .execute fun store =>
    let moved := (store.children sourceId).filter fun skill => !skill.isGlobal
    (moved.map fun skill => .reparent skill.id targetId, moved.length)

/-- `DELETE FROM skills`, of an own skill that is still there. -/
def deleteSkill (id : SkillId) : SkillTransaction Unit :=
  .execute fun store =>
    if store.skills.any fun skill => skill.id == id && !skill.isGlobal then
      ([.delete id ((store.children id).map SkillRow.id)], ())
    else ([], ())

structure MergeSkillsResult where
  questionTagsRewritten : Nat
  roleRequirementsRewritten : Nat
  childrenReparented : Nat
deriving DecidableEq

/-- Rewrites the references of the source to the target, and deletes the source. -/
def rewriteReferences (sourceId targetId : SkillId) : SkillTransaction MergeSkillsResult := do
  let tags ← copyTags sourceId targetId
  let roles ← copyRequirements sourceId targetId
  let children ← reparentChildren sourceId targetId
  deleteSkill sourceId
  return ⟨tags, roles, children⟩

def mergeSkills (sourceId targetId : SkillId) : SkillTransaction MergeSkillsResult := do
  if sourceId = targetId then .fail (mergeRefused "a skill cannot be merged into itself")
  else
    match ← readSkill sourceId with
    | none => .fail .notFound
    | some source =>
        match ← readSkill targetId with
        | none => .fail (fieldRefusal "No such skill." "body/target_id" "not_found")
        | some target =>
            .ofExcept (checkMerge sourceId source target)
            rewriteReferences sourceId targetId

end Assaybank.Taxonomy
