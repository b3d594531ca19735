import Assaybank.Api.Questions

/-!
Owns the bank of one organisation as its staff change it: the taxonomy
(`packages/db/src/taxonomy.ts`, `packages/db/src/seed.ts`), the questions, and the operations on
both, each run to its commit.

The skills are those the organisation sees: the global ones, which it only reads, and its own.
What a merge does to job roles is left out here (`Taxonomy/Tables.lean`).
-/

namespace Assaybank.Bank

open Assaybank.Runtime Assaybank.Library Assaybank.Contracts Assaybank.Db Assaybank.Api

/-- One row of `skills`. A global skill belongs to no organisation. -/
structure SkillRow where
  id : SkillId
  isGlobal : Bool
  parentId : Option SkillId
  key : JsString
  name : JsString
  category : Option JsString
deriving DecidableEq

/-- One row of `job_role_skills`. -/
structure JobRoleSkill where
  jobRoleId : Uuid
  skillId : SkillId
  weight : Decimal
  minDifficulty : Option Int
  maxDifficulty : Option Int
  isRequired : Bool
deriving DecidableEq

structure BankState where
  skills : List SkillRow
  questions : List (QuestionId × QuestionRows)

/-! ### The taxonomy -/

structure CreateSkillInput where
  key : JsString
  name : JsString
  category : Option JsString
  parentId : Option SkillId

def SkillCategorySchema : Schema JsString := .string [minLength 1, maxLength 60]

def CreateSkillSchema : Schema CreateSkillInput :=
  .strictObject
    (.both (.field (js "key") SkillKeySchema)
      (.both (.field (js "name") (.string [minLength 1, maxLength 200]))
        (.both (.optional (js "category") SkillCategorySchema)
          (.optional (js "parent_id") UuidSchema))))
    { toFun := fun (key, name, category, parentId) => ⟨key, name, category, parentId⟩
      invFun := fun s => (s.key, s.name, s.category, s.parentId)
      left_inv := fun _ => rfl
      right_inv := fun _ => rfl }

structure MergeSkillInput where
  targetId : SkillId
  reason : JsString

def MergeSkillSchema : Schema MergeSkillInput :=
  .strictObject
    (.both (.field (js "target_id") UuidSchema)
      (.field (js "reason") (.string [minLength 1, maxLength 500])))
    { toFun := fun (targetId, reason) => ⟨targetId, reason⟩
      invFun := fun m => (m.targetId, m.reason)
      left_inv := fun _ => rfl
      right_inv := fun _ => rfl }

def BankState.skill? (bank : BankState) (id : SkillId) : Option SkillRow :=
  bank.skills.find? fun skill => skill.id == id

/-- A refusal that names a body field. -/
def fieldRefusal (message field rule : String) : ApiError :=
  ⟨.validationFailed, js message, [.field (js field) (js rule) (some (js message))]⟩

def noSuchParent : ApiError := fieldRefusal "No such parent skill." "body/parent_id" "not_found"

def parentTooDeep : ApiError :=
  fieldRefusal "the taxonomy is two levels deep (ADR-009): a skill whose parent already has a parent would be a third level. Attach it to the grandparent, or promote the parent."
    "body/parent_id" "too_deep"

/-- Refuses a parent that is not there or is itself a child. -/
def checkParent (bank : BankState) : Option SkillId → Except ApiError Unit
  | none => .ok ()
  | some parentId =>
      match bank.skill? parentId with
      | none => .error noSuchParent
      | some parent => if parent.parentId.isSome then .error parentTooDeep else .ok ()

/-- `POST /skills`. A key the organisation has already is a constraint violation. -/
def createSkill (bank : BankState) (body : Value) (id : SkillId) : Except ApiError BankState := do
  let input ← parseRequestPart CreateSkillSchema body
  checkParent bank input.parentId
  if bank.skills.any fun skill => skill.id == id || (!skill.isGlobal && skill.key == input.key) then
    .error .internal
  else if !takesText input.name || !input.category.all takesText then .error .internal
  else
    return { bank with
      skills := bank.skills ++
        [⟨id, false, input.parentId, input.key, toWellFormed input.name,
          input.category.map toWellFormed⟩] }

def mergeRefused (message : String) : ApiError :=
  fieldRefusal message "body/target_id" "merge_refused"

/-- Everything that can refuse a merge. -/
def checkMerge (bank : BankState) (sourceId targetId : SkillId) : Except ApiError Unit := do
  if sourceId = targetId then .error (mergeRefused "a skill cannot be merged into itself")
  match bank.skill? sourceId, bank.skill? targetId with
  | none, _ => .error .notFound
  | some _, none => .error (fieldRefusal "No such skill." "body/target_id" "not_found")
  | some source, some target =>
      if source.isGlobal then
        .error (mergeRefused "a global skill is shared by every organisation and cannot be merged away by one. Merge your own duplicate into it instead.")
      if target.parentId = some sourceId then
        .error (mergeRefused "the target is a child of the skill being merged, and would become its own parent. Merge the child into the parent instead.")
      if (bank.skills.any fun skill => skill.parentId == some sourceId) &&
          target.parentId.isSome then
        .error (mergeRefused "the skill being merged has children, and the target is itself a child: its children would become a third level (ADR-009). Merge into the target’s parent, or re-parent first.")

/-- The tags of a question after a merge: the source's copied onto the target where it has none,
then the source's gone with their skill. -/
def mergeTags (sourceId targetId : SkillId) (tags : List QuestionSkill) : List QuestionSkill :=
  let moved := (tags.filter fun tag => tag.skillId == sourceId).map fun tag =>
    { tag with skillId := targetId }
  let added := moved.filter fun tag => !(tags.map QuestionSkill.skillId).contains tag.skillId
  (tags ++ added).filter fun tag => tag.skillId != sourceId

/-- `POST /skills/:id/merge`. -/
def mergeSkills (bank : BankState) (sourceId : SkillId) (body : Value) : Except ApiError BankState := do
  let input ← parseRequestPart MergeSkillSchema body
  checkMerge bank sourceId input.targetId
  return {
    skills := (bank.skills.filter fun skill => skill.id != sourceId).map fun skill =>
      if skill.parentId = some sourceId then { skill with parentId := some input.targetId }
      else skill
    questions := bank.questions.map fun (id, question) =>
      (id, { question with skills := mergeTags sourceId input.targetId question.skills }) }

/-! ### Operations -/

inductive BankOperation where
  | write (id : QuestionId) (request : QuestionRequest)
  | createSkill (body : Value) (id : SkillId)
  | mergeSkills (sourceId : SkillId) (body : Value)

/-- A request, with the skills its organisation sees. -/
def seeing (visible : List SkillId) : QuestionRequest → QuestionRequest
  | .putSkills body _ => .putSkills body visible
  | request => request

def BankState.question? (bank : BankState) (id : QuestionId) : Option QuestionRows :=
  (bank.questions.find? fun entry => entry.1 == id).map Prod.snd

/-- The bank with the rows of one question written. -/
def BankState.store (bank : BankState) (id : QuestionId) : Option QuestionRows → BankState
  | none => bank
  | some question =>
      { bank with
        questions :=
          if (bank.question? id).isSome then
            bank.questions.map fun entry => if entry.1 = id then (id, question) else entry
          else bank.questions ++ [(id, question)] }

/-- One operation. One that is refused leaves the bank as it is. -/
def BankState.apply (bank : BankState) : BankOperation → BankState
  | .write id request =>
      match (handle id (seeing (bank.skills.map SkillRow.id) request)).run (bank.question? id) with
      | .ok (after, _) => bank.store id after
      | .error _ => bank
  | .createSkill body id => (createSkill bank body id).toOption.getD bank
  | .mergeSkills sourceId body => (mergeSkills bank sourceId body).toOption.getD bank

/-! ### The seed -/

structure SeedSkill where
  key : String
  name : String
  category : String
  children : List (String × String)

def SEED_SKILLS : List SeedSkill :=
  [ ⟨"python", "Python", "language",
      [("python.asyncio", "asyncio"), ("python.typing", "Typing")]⟩,
    ⟨"javascript", "JavaScript", "language",
      [("javascript.async", "Asynchronous JavaScript"), ("javascript.modules", "Modules")]⟩,
    ⟨"typescript", "TypeScript", "language", []⟩,
    ⟨"java", "Java", "language", []⟩,
    ⟨"go", "Go", "language", []⟩,
    ⟨"sql", "SQL", "language",
      [("sql.joins", "Joins"), ("sql.window-functions", "Window functions"),
        ("sql.indexing", "Indexing"), ("sql.transactions", "Transactions")]⟩,
    ⟨"algorithms", "Algorithms", "cs-fundamentals",
      [("algorithms.complexity", "Complexity analysis"),
        ("algorithms.sorting", "Sorting and searching"), ("algorithms.graphs", "Graphs"),
        ("algorithms.dynamic-programming", "Dynamic programming")]⟩,
    ⟨"data-structures", "Data structures", "cs-fundamentals",
      [("data-structures.trees", "Trees"), ("data-structures.hash-maps", "Hash maps")]⟩,
    ⟨"concurrency", "Concurrency", "cs-fundamentals",
      [("concurrency.locking", "Locking"), ("concurrency.async-io", "Asynchronous I/O")]⟩,
    ⟨"system-design", "System design", "cs-fundamentals",
      [("system-design.data-modelling", "Data modelling"), ("system-design.caching", "Caching"),
        ("system-design.queues", "Queues and messaging"),
        ("system-design.scaling", "Scaling and availability")]⟩,
    ⟨"security", "Security", "cs-fundamentals",
      [("security.authentication", "Authentication and sessions"),
        ("security.injection", "Injection"), ("security.secrets", "Secret handling")]⟩,
    ⟨"testing", "Testing", "cs-fundamentals", [("testing.unit", "Unit testing")]⟩,
    ⟨"react", "React", "framework", []⟩,
    ⟨"docker", "Docker", "cloud", []⟩,
    ⟨"kubernetes", "Kubernetes", "cloud", []⟩,
    ⟨"observability", "Observability", "cloud",
      [("observability.logging", "Logging"), ("observability.metrics", "Metrics")]⟩ ]

/-- The global rows a seeded skill writes. Their identifiers are minted by key. -/
def seedRows (mint : JsString → SkillId) (seed : SeedSkill) : List SkillRow :=
  let parent := mint (js seed.key)
  ⟨parent, true, none, js seed.key, js seed.name, some (js seed.category)⟩ ::
    seed.children.map fun (key, name) =>
      ⟨mint (js key), true, some parent, js key, js name, some (js seed.category)⟩

/-- An organisation before its first question. -/
def seededBank (mint : JsString → SkillId) : BankState := ⟨SEED_SKILLS.flatMap (seedRows mint), []⟩

end Assaybank.Bank
