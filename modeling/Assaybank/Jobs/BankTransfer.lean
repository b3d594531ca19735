import Assaybank.Bank.Taxonomy
import Assaybank.Interchange.Records
import Assaybank.Runtime.NumberText
import Mathlib.Data.List.Sort

/-!
Owns the assembly of an export (`apps/worker/src/jobs/bank-transfer.ts`): a question's rows as
the item that leaves the organisation, and the bank as the list of its items.

The lists of skills, questions and versions are read whole: their pages are put together here.
-/

namespace Assaybank.Jobs

open Assaybank.Runtime Assaybank.Contracts Assaybank.Db Assaybank.Interchange Assaybank.Bank

/-- Every version of a question, oldest first. -/
def allVersions (question : QuestionRows) : List BankVersion :=
  (question.versions.map toBankVersion).insertionSort fun left right =>
    left.versionNo ≤ right.versionNo

/-- The tags of a question under the keys of its skills, sorted by key. On the units of a key
`localeCompare` orders as the units do. -/
def exportedSkills (keyById : SkillId → Option JsString) (question : QuestionRows) :
    List BankSkill :=
  ((loadSkills question).flatMap fun skill =>
    (keyById skill.skillId).elim [] fun key => [⟨key, skill.weight⟩]).insertionSort
      fun left right => left.key ≤ right.key

/-- A question as it leaves the organisation. -/
def exportedItem (ref : JsString) (keyById : SkillId → Option JsString)
    (question : QuestionRows) : BankItem where
  ref := ref
  kind := question.kind
  status := question.status
  sourceLicense := question.sourceLicense
  externalRef := question.externalRef
  skills := exportedSkills keyById question
  versions := allVersions question

/-! ### The bank -/

structure ExportFilter where
  skillId : Option SkillId
  status : Option QuestionStatus

/-- Whether a question is listed: not archived, and of the status and the skill asked for. -/
def isListed (filter : ExportFilter) (question : QuestionRows) : Bool :=
  question.archivedAt.isNone && filter.status.all (fun status => question.status == status) &&
    filter.skillId.all fun id => question.skills.any fun tag => tag.skillId == id

/-- The questions of a bank, oldest first. -/
def listQuestions (bank : BankState) (filter : ExportFilter) : List (QuestionId × QuestionRows) :=
  (bank.questions.filter fun entry => isListed filter entry.2).insertionSort fun left right =>
    left.2.createdAt < right.2.createdAt ∨
      (left.2.createdAt = right.2.createdAt ∧ left.1 ≤ right.1)

/-- The key of each skill the organisation sees. -/
def keyById (bank : BankState) (id : SkillId) : Option JsString :=
  (bank.skill? id).map SkillRow.key

/-- A handle within one file: the position of the question, counted from one. -/
def positionalRef (index : Nat) : JsString :=
  js "q-" ++ padStart 5 (unit '0') (natText (index + 1))

/-- The organisation's bank. A question with no version has nothing to move. -/
def exportBank (bank : BankState) (filter : ExportFilter) : List BankItem :=
  (listQuestions bank filter).zipIdx.flatMap fun (entry, index) =>
    if allVersions entry.2 = [] then []
    else [exportedItem (positionalRef index) (keyById bank) entry.2]

end Assaybank.Jobs
