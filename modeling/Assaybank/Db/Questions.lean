import Assaybank.Contracts.Errors
import Assaybank.Db.Storage
import Assaybank.Library.RowLocks
import Mathlib.Data.List.MinMax

/-!
Owns the rows of one question and the statements on them (`packages/db/src/questions.ts`): its
`questions` row, its tags, and the `question_versions` rows that name it.

The rows of a question are one row here, because every writer locks the `questions` row before it
reads the others. A statement of the source is one statement here, with one exception: a version's
four child tables are written with the version. What a statement violates a constraint of the
schema with aborts the transaction, which the API answers as `internal`.
-/

namespace Assaybank.Db

open Assaybank.Runtime Assaybank.Library Assaybank.Contracts

abbrev QuestionId := Uuid

abbrev VersionId := Uuid

structure VersionRow where
  id : VersionId
  versionNo : Nat
  content : VersionContent
  publishedAt : Option Instant
  createdAt : Instant
deriving DecidableEq

/-- One row of `question_skills`. -/
structure QuestionSkill where
  skillId : SkillId
  weight : Decimal
deriving DecidableEq

/-- The rows of one question. -/
structure QuestionRows where
  kind : QuestionKind
  status : QuestionStatus
  currentVersionId : Option VersionId
  externalRef : Option JsString
  sourceLicense : Option JsString
  archivedAt : Option Instant
  createdAt : Instant
  skills : List QuestionSkill
  versions : List VersionRow
deriving DecidableEq

/-- Whether a version is published. -/
def VersionRow.isPublished (version : VersionRow) : Bool := version.publishedAt.isSome

/-- The row of the version the question points at. -/
def QuestionRows.currentVersion (question : QuestionRows) : Option VersionRow :=
  question.currentVersionId.bind fun id => question.versions.find? fun version => version.id == id

/-- A transaction on the rows of one question, which may not exist. -/
abbrev DbTransaction (Result : Type) := Transaction (Option QuestionRows) ApiError Result

/-! ### Reading -/

def getQuestionWithCurrentVersion (includeArchived : Bool) : DbTransaction (Option QuestionRows) :=
  .query fun row => row.filter fun question => includeArchived || question.archivedAt.isNone

/-- The version a `version_no` addresses. -/
def QuestionRows.version? (question : QuestionRows) (versionNo : Nat) : Option VersionRow :=
  question.versions.find? fun version => version.versionNo == versionNo

def getVersion (versionNo : Nat) : DbTransaction (Option VersionRow) :=
  .query fun row => row.bind fun question => question.version? versionNo

/-- The highest-numbered version, whatever its state. -/
def QuestionRows.latestVersion (question : QuestionRows) : Option VersionRow :=
  question.versions.argmax VersionRow.versionNo

def getLatestVersion : DbTransaction (Option VersionRow) :=
  .query fun row => row.bind QuestionRows.latestVersion

/-- What a question measures, by skill identifier. -/
def loadSkills (question : QuestionRows) : List QuestionSkill :=
  question.skills.insertionSort fun left right => left.skillId ≤ right.skillId

/-! ### Writing -/

/-- A statement on the rows of a question that exists. -/
def onQuestion {Result : Type} (absent : Result)
    (effect : QuestionRows → Except ApiError (QuestionRows × Result)) : DbTransaction Result :=
  .execute fun
    | none => .ok (none, absent)
    | some question => (effect question).map fun (after, result) => (some after, result)

structure CreateQuestionInput where
  kind : QuestionKind
  sourceLicense : Option JsString
  externalRef : Option JsString

/-- `INSERT INTO questions`. The identifier is the row's, minted by the database. -/
def createQuestion (input : CreateQuestionInput) (createdAt : Instant) : DbTransaction QuestionRows :=
  .execute fun row =>
    if row.isNone && input.sourceLicense.all takesText && input.externalRef.all takesText then
      let question : QuestionRows :=
        { kind := input.kind
          status := .draft
          currentVersionId := none
          externalRef := input.externalRef.map toWellFormed
          sourceLicense := input.sourceLicense.map toWellFormed
          archivedAt := none
          createdAt := createdAt
          skills := []
          versions := [] }
      .ok (some question, question)
    else .error .internal

/-- `max(version_no)`, zero when there is no version. -/
def QuestionRows.highestVersionNo (question : QuestionRows) : Nat :=
  question.latestVersion.elim 0 VersionRow.versionNo

/-- `INSERT INTO question_versions`, with its children. -/
def insertVersion (version : VersionRow) : DbTransaction VersionRow :=
  .execute fun
    | none => .error .internal
    | some question =>
        if takesContent version.content &&
            question.versions.all fun other =>
              other.id != version.id &&
                (other.versionNo != version.versionNo ||
                  other.content.locale != version.content.locale) then
          let stored := { version with content := storedContent version.content }
          .ok (some { question with versions := question.versions ++ [stored] }, stored)
        else .error .internal

/-- Appends a version, numbered one above the highest. -/
def createVersion (id : VersionId) (content : VersionContent) (now : Instant) :
    DbTransaction VersionRow := do
  let highest ← Transaction.query fun row => row.elim 0 QuestionRows.highestVersionNo
  insertVersion ⟨id, highest + 1, content, none, now⟩

/-- The rows an `UPDATE … WHERE version_no = … AND published_at IS NULL` changes. -/
def isDraftNumbered (versionNo : Nat) (version : VersionRow) : Bool :=
  version.versionNo == versionNo && !version.isPublished

/-- Writes every unpublished version of a number, and answers the first of them. -/
def updateDraft (versionNo : Nat) (write : VersionRow → VersionRow) (question : QuestionRows) :
    QuestionRows × Option VersionRow :=
  ({ question with
      versions := question.versions.map fun version =>
        if isDraftNumbered versionNo version then write version else version },
    (question.versions.find? (isDraftNumbered versionNo)).map write)

/-- Replaces the content of an unpublished version. The children are written when there is one. -/
def updateVersion (versionNo : Nat) (content : VersionContent) :
    DbTransaction (Option VersionRow) :=
  onQuestion none fun question =>
    if takesVersion content &&
        ((question.versions.find? (isDraftNumbered versionNo)).isNone || takesChildren content) then
      .ok (updateDraft versionNo
        (fun version => { version with content := storedContent content }) question)
    else .error .internal

/-- Freezes a version and points the question at it. -/
def publishVersion (versionNo : Nat) (now : Instant) : DbTransaction (Option VersionRow) := do
  let frozen ← onQuestion none fun question =>
    .ok (updateDraft versionNo (fun version => { version with publishedAt := some now }) question)
  match frozen with
  | none => pure none
  | some version =>
      onQuestion () fun question => .ok ({ question with currentVersionId := some version.id }, ())
      pure (some version)

/-- Writes the `questions` row where a condition on it holds. -/
def updateQuestion (condition : QuestionRows → Bool) (write : QuestionRows → QuestionRows) :
    DbTransaction (Option QuestionRows) :=
  onQuestion none fun question =>
    if condition question then .ok (write question, some (write question)) else .ok (question, none)

def isActive (question : QuestionRows) : Bool := question.archivedAt.isNone

def setQuestionStatus (status : QuestionStatus) : DbTransaction (Option QuestionRows) :=
  updateQuestion isActive fun question => { question with status := status }

def archiveQuestion (now : Instant) : DbTransaction (Option QuestionRows) :=
  updateQuestion isActive fun question => { question with archivedAt := some now }

def restoreQuestion : DbTransaction (Option QuestionRows) :=
  updateQuestion (fun _ => true) fun question => { question with archivedAt := none }

/-- Replaces the tags of a question: a delete, and an insert that a repeated skill refuses. -/
def setQuestionSkills (skills : List QuestionSkill) : DbTransaction Unit := do
  onQuestion () fun question => .ok ({ question with skills := [] }, ())
  if skills = [] then pure ()
  else
    onQuestion () fun question =>
      if (skills.map QuestionSkill.skillId).Nodup then
        .ok ({ question with
          skills := skills.map fun skill => { skill with weight := toFixed2 skill.weight } }, ())
      else .error .internal

end Assaybank.Db
