import Assaybank.Jobs.BankPages
import Assaybank.Interchange.Records
import Assaybank.Jobs.BankJob
import Assaybank.Library.Json
import Assaybank.Library.OrderedMap

/-!
Owns the import into an organisation's bank (`apps/worker/src/jobs/bank-transfer.ts`): each item
in a transaction of its own, through the statements the API uses, and the items one by one.

It does not own the audit row of an item nor the checkpoint of a job, which are written in the same
transaction. Who asked for the import is not kept with a question here.
-/

namespace Assaybank.Jobs.Transfer

open Assaybank.Runtime Assaybank.Library Assaybank.Contracts Assaybank.Db Assaybank.Interchange
open Assaybank.Bank

structure ImportRequest where
  sourceLicense : JsString
  defaultSkillIds : List SkillId

/-- What the clock and the database supply to the import of one item: no identifier is minted
twice. -/
structure Minted where
  questionId : QuestionId
  createdAt : Instant
  stampedAt : Instant
  versionIds : Nat → VersionId
  distinct : Function.Injective versionIds

/-- The skill of each key the organisation sees, its own before a global one. -/
def skillIdsByKey (bank : BankState) : List (JsString × SkillId) :=
  setEntries [] ((bank.skills.filter SkillRow.isGlobal ++
    bank.skills.filter fun skill => !skill.isGlobal).map fun skill => (skill.key, skill.id))

/-- The versions of an item, each written and, if it was published, published again. They are a
millisecond apart. -/
def writeVersions (minted : Minted) : Nat → List BankVersion → DbTransaction Unit
  | _, [] => pure ()
  | i, version :: rest => do
      let written ← createVersion (minted.versionIds i) (toVersionContent version)
        (minted.stampedAt + i)
      if version.published then
        let _published ← publishVersion written.versionNo (minted.stampedAt + i)
      writeVersions minted (i + 1) rest

/-- The tags of an imported question: those it carries, then the request's own. -/
def importedSkills (request : ImportRequest) (byKey : List (JsString × SkillId)) (item : BankItem) :
    List QuestionSkill :=
  let named := setEntries [] (item.skills.filterMap fun skill =>
    (byKey.lookup skill.key).map fun id => (id, skill.weight))
  let skills := request.defaultSkillIds.foldl (fun (skills : List (SkillId × Decimal)) id =>
    if (skills.lookup id).isSome then skills else setEntry skills id 1) named
  skills.map fun (skillId, weight) => ⟨skillId, weight⟩

/-- The transaction of one item, once its skills are known. -/
def writeItem (request : ImportRequest) (byKey : List (JsString × SkillId)) (item : BankItem)
    (minted : Minted) : DbTransaction Unit := do
  let _created ← createQuestion
    ⟨item.kind, some (item.sourceLicense.getD request.sourceLicense), item.externalRef⟩
    minted.createdAt
  writeVersions minted 0 item.versions
  if item.status ≠ .draft then
    let _written ← setQuestionStatus item.status
  setQuestionSkills (importedSkills request byKey item)

/-- One item, or what keeps it out. -/
def importOne (request : ImportRequest) (bank : BankState) (entry : Entry) (minted : Minted) :
    Except ItemProblem BankState :=
  let byKey := skillIdsByKey bank
  let unknown := (entry.item.skills.map BankSkill.key).filter fun key => (byKey.lookup key).isNone
  if unknown ≠ [] then
    .error ⟨entry.index, some entry.item.ref, [.key (js "skills")], .custom
      (js "no skill with key " ++ joinWith (js ", ") (unknown.map jsonString) ++
        js " in this organisation; create or merge it, then import again")⟩
  else
    match (writeItem request byKey entry.item minted).run (bank.question? minted.questionId) with
    | .ok (rows, _) => .ok (bank.store minted.questionId rows)
    | .error _ =>
        .error ⟨entry.index, some entry.item.ref, [], .custom
          (js "the item could not be written; nothing from it was saved")⟩

structure CreatedItem where
  index : Nat
  ref : JsString
  questionId : QuestionId
deriving DecidableEq

structure ImportOutcome where
  created : List CreatedItem
  problems : List ItemProblem

/-- Imports items one transaction at a time. A refused item is reported and leaves the bank as it
is. -/
def importBankItems (request : ImportRequest) :
    BankState → List (Entry × Minted) → BankState × ImportOutcome
  | bank, [] => (bank, ⟨[], []⟩)
  | bank, (entry, minted) :: rest =>
      match importOne request bank entry minted with
      | .ok after =>
          let (last, outcome) := importBankItems request after rest
          (last, { outcome with
            created := ⟨entry.index, entry.item.ref, minted.questionId⟩ :: outcome.created })
      | .error problem =>
          let (last, outcome) := importBankItems request bank rest
          (last, { outcome with problems := problem :: outcome.problems })

end Assaybank.Jobs.Transfer
