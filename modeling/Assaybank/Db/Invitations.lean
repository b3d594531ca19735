import Assaybank.Contracts.Errors
import Assaybank.Db.Storage
import Assaybank.Domain.Deadline
import Assaybank.Library.ReadCommitted
import Assaybank.Library.TextRules

/-!
Owns the tables a sitting hangs from, and the statements on them: `packages/db/src/invitations.ts`,
`assessments.ts` and the insert of `audit.ts`.

The rows are those of one organisation, which is all that a request sees under `withOrg`. A
statement that meets a row another transaction is writing waits for it, by the keys of `Key`. The
declared constraints are checked at the commit: a statement that breaks one fails with its whole
transaction, so none of what it wrote is committed either way.

It does not own the checks an audit entry passes before its insert, nor the columns that no
statement here reads.
-/

namespace Assaybank.Db

open Assaybank.Runtime Assaybank.Library Assaybank.Contracts Assaybank.Domain

/-! ### Rows -/

/-- An address that the `email` check of a schema admits. -/
structure Email where
  text : JsString
  ascii : isAsciiText text = true
deriving DecidableEq

/-- An address as it is compared: `toLowerCase`, `lower` and the equality of `citext` agree on it. -/
def Email.key (email : Email) : JsString := email.text.map lowerAscii

/-- One rule of a section: which questions it draws, and how many. -/
structure SectionRuleRecord where
  pickCount : Nat
  skillIds : List JsString
  kinds : List QuestionKind
  minDifficulty : Int
  maxDifficulty : Int
deriving DecidableEq

structure SectionRecord where
  name : JsString
  rules : List SectionRuleRecord
deriving DecidableEq

/-- An `assessments` row, with its sections and their rules. -/
structure Assessment where
  id : JsString
  jobRoleId : Option JsString
  name : JsString
  durationSeconds : Int
  allowBackNav : Bool
  status : QuestionStatus
  versionNo : Int
  sections : List SectionRecord
deriving DecidableEq

structure Candidate where
  id : JsString
  email : Email
  fullName : Option JsString
deriving DecidableEq

structure JobOpening where
  id : JsString
  jobRoleId : JsString
  title : JsString
  openedAt : EpochMillis
deriving DecidableEq

structure Application where
  id : JsString
  candidateId : JsString
  jobOpeningId : JsString
deriving DecidableEq

structure Invitation where
  id : JsString
  applicationId : Option JsString
  assessmentId : JsString
  tokenHash : JsString
  opensAt : Option EpochMillis
  expiresAt : EpochMillis
  maxAttempts : Int
  sentAt : Option EpochMillis
  createdBy : JsString
deriving DecidableEq

structure Attempt where
  id : JsString
  invitationId : Option JsString
  candidateId : JsString
  assessmentId : JsString
  assessmentVersion : Int
  createdAt : EpochMillis
deriving DecidableEq

/-- An `audit_log` row. The payload holds identifiers and counts. -/
structure AuditRow where
  actorUserId : Option JsString
  action : JsString
  entityType : JsString
  entityId : Option JsString
  after : List (JsString × (JsString ⊕ Int))
  ip : Option JsString
  atTime : EpochMillis
deriving DecidableEq

/-- The rows of one organisation. -/
structure Store where
  assessments : List Assessment
  candidates : List Candidate
  jobOpenings : List JobOpening
  applications : List Application
  invitations : List Invitation
  attempts : List Attempt
  auditLog : List AuditRow
deriving DecidableEq

def Store.empty : Store := ⟨[], [], [], [], [], [], []⟩

/-! ### Writes -/

/-- What a statement does to the tables: a row inserted, a row updated, or a row locked. -/
inductive Write where
  | assessment (row : Assessment)
  | publish (id : JsString)
  | candidate (row : Candidate)
  | nameCandidate (email : Email) (fullName : Option JsString)
  | jobOpening (row : JobOpening)
  | application (row : Application)
  | touchApplication (candidateId jobOpeningId : JsString)
  | invitation (row : Invitation)
  | lockInvitation (id : JsString)
  | attempt (row : Attempt)
  | audit (row : AuditRow)
deriving DecidableEq

/-- What a transaction holds until it ends: a row, or the place of a row in a unique index. -/
inductive Key where
  | assessment (id : JsString)
  | candidate (email : JsString)
  | application (candidateId jobOpeningId : JsString)
  | invitation (id : JsString)
deriving DecidableEq

def Write.apply (store : Store) : Write → Store
  | .assessment row => { store with assessments := store.assessments ++ [row] }
  | .publish id =>
      { store with
        assessments := store.assessments.map fun row =>
          if row.id = id then { row with status := .published } else row }
  | .candidate row => { store with candidates := store.candidates ++ [row] }
  | .nameCandidate email fullName =>
      { store with
        candidates := store.candidates.map fun row =>
          if row.email.key = email.key then { row with fullName := row.fullName.or fullName }
          else row }
  | .jobOpening row => { store with jobOpenings := store.jobOpenings ++ [row] }
  | .application row => { store with applications := store.applications ++ [row] }
  | .touchApplication _ _ => store
  | .invitation row => { store with invitations := store.invitations ++ [row] }
  | .lockInvitation _ => store
  | .attempt row => { store with attempts := store.attempts ++ [row] }
  | .audit row => { store with auditLog := store.auditLog ++ [row] }

/-- The keys of a write. An attempt holds the invitation it refers to. -/
def Write.keys : Write → List Key
  | .publish id => [.assessment id]
  | .candidate row => [.candidate row.email.key]
  | .nameCandidate email _ => [.candidate email.key]
  | .application row => [.application row.candidateId row.jobOpeningId]
  | .touchApplication candidateId jobOpeningId => [.application candidateId jobOpeningId]
  | .lockInvitation id => [.invitation id]
  | .attempt row => (row.invitationId.map Key.invitation).toList
  | .assessment _ | .jobOpening _ | .invitation _ | .audit _ => []

/-- The primary keys, the unique columns and the references of the tables. -/
structure Legal (store : Store) : Prop where
  assessmentIds : (store.assessments.map Assessment.id).Nodup
  candidateIds : (store.candidates.map Candidate.id).Nodup
  candidateEmails : (store.candidates.map fun row => row.email.key).Nodup
  jobOpeningIds : (store.jobOpenings.map JobOpening.id).Nodup
  applicationIds : (store.applications.map Application.id).Nodup
  applicationPairs : (store.applications.map fun row => (row.candidateId, row.jobOpeningId)).Nodup
  invitationIds : (store.invitations.map Invitation.id).Nodup
  tokenHashes : (store.invitations.map Invitation.tokenHash).Nodup
  attemptIds : (store.attempts.map Attempt.id).Nodup
  applicationCandidates : ∀ row ∈ store.applications,
    row.candidateId ∈ store.candidates.map Candidate.id
  applicationOpenings : ∀ row ∈ store.applications,
    row.jobOpeningId ∈ store.jobOpenings.map JobOpening.id
  invitationApplications : ∀ row ∈ store.invitations, ∀ id ∈ row.applicationId,
    id ∈ store.applications.map Application.id
  invitationAssessments : ∀ row ∈ store.invitations,
    row.assessmentId ∈ store.assessments.map Assessment.id
  attemptInvitations : ∀ row ∈ store.attempts, ∀ id ∈ row.invitationId,
    id ∈ store.invitations.map Invitation.id
  attemptCandidates : ∀ row ∈ store.attempts, row.candidateId ∈ store.candidates.map Candidate.id
  attemptAssessments : ∀ row ∈ store.attempts,
    row.assessmentId ∈ store.assessments.map Assessment.id

instance (store : Store) : Decidable (Legal store) :=
  decidable_of_iff
    (((store.assessments.map Assessment.id).Nodup ∧ (store.candidates.map Candidate.id).Nodup ∧
        (store.candidates.map fun row => row.email.key).Nodup ∧
        (store.jobOpenings.map JobOpening.id).Nodup ∧
        (store.applications.map Application.id).Nodup ∧
        (store.applications.map fun row => (row.candidateId, row.jobOpeningId)).Nodup ∧
        (store.invitations.map Invitation.id).Nodup ∧
        (store.invitations.map Invitation.tokenHash).Nodup ∧
        (store.attempts.map Attempt.id).Nodup) ∧
      (∀ row ∈ store.applications, row.candidateId ∈ store.candidates.map Candidate.id) ∧
      (∀ row ∈ store.applications, row.jobOpeningId ∈ store.jobOpenings.map JobOpening.id) ∧
      (∀ row ∈ store.invitations, ∀ id ∈ row.applicationId,
        id ∈ store.applications.map Application.id) ∧
      (∀ row ∈ store.invitations, row.assessmentId ∈ store.assessments.map Assessment.id) ∧
      (∀ row ∈ store.attempts, ∀ id ∈ row.invitationId,
        id ∈ store.invitations.map Invitation.id) ∧
      (∀ row ∈ store.attempts, row.candidateId ∈ store.candidates.map Candidate.id) ∧
      ∀ row ∈ store.attempts, row.assessmentId ∈ store.assessments.map Assessment.id)
    ⟨fun ⟨⟨a, b, c, d, e, f, g, h, i⟩, j, k, l, m, n, o, p⟩ =>
        ⟨a, b, c, d, e, f, g, h, i, j, k, l, m, n, o, p⟩,
      fun ⟨a, b, c, d, e, f, g, h, i, j, k, l, m, n, o, p⟩ =>
        ⟨⟨a, b, c, d, e, f, g, h, i⟩, j, k, l, m, n, o, p⟩⟩

def engine : ReadCommitted.Engine Store Write Key where
  apply := Write.apply
  keys := Write.keys
  legal store := decide (Legal store)

/-- A transaction, or a part of one. -/
abbrev OrgTransaction := ReadCommitted.Tx Store Write ApiError

/-! ### Assessments -/

structure CreateAssessmentRecord where
  jobRoleId : JsString
  name : JsString
  durationSeconds : Int
  sections : List SectionRecord

/-- Writes an assessment, its sections and their rules. -/
def createAssessment (record : CreateAssessmentRecord) (id : JsString) : OrgTransaction JsString :=
  if takesText record.name then
    .execute fun _ =>
      ([.assessment ⟨id, some record.jobRoleId, toWellFormed record.name, record.durationSeconds,
        true, .draft, 1, record.sections⟩], id)
  else .fail .internal

/-- An assessment's publishable facts. -/
structure AssessmentPublishState where
  status : QuestionStatus
  jobRoleId : Option JsString
  name : JsString
  ruleCount : Nat

def assessmentPublishState (assessmentId : JsString) :
    OrgTransaction (Option AssessmentPublishState) :=
  .query fun store => (store.assessments.find? fun row => row.id == assessmentId).map fun row =>
    ⟨row.status, row.jobRoleId, row.name, (row.sections.map fun part => part.rules.length).sum⟩

/-- Every rule of an assessment. -/
def assessmentRules (assessmentId : JsString) : OrgTransaction (List SectionRuleRecord) :=
  .query fun store => ((store.assessments.find? fun row => row.id == assessmentId).map fun row =>
    row.sections.flatMap SectionRecord.rules).getD []

/-- Marks an assessment published. Returns false if it already was. -/
def publishAssessment (assessmentId : JsString) : OrgTransaction Bool :=
  .execute fun store =>
    if store.assessments.any fun row => row.id == assessmentId && row.status != .published then
      ([.publish assessmentId], true)
    else ([], false)

/-! ### Candidates and their applications -/

/-- Finds or creates the candidate for one address. -/
def upsertCandidate (email : Email) (fullName : Option JsString) (id : JsString) :
    OrgTransaction JsString :=
  .execute fun store =>
    match store.candidates.find? fun row => row.email.key == email.key with
    | some row => ([.nameCandidate email fullName], row.id)
    | none => ([.candidate ⟨id, email, fullName⟩], id)

/-- The row of the earliest `opened_at`. -/
def earliest : List JobOpening → Option JobOpening
  | [] => none
  | row :: rest =>
      match earliest rest with
      | none => some row
      | some later => if later.openedAt < row.openedAt then some later else some row

/-- The opening that a title finds. -/
def Store.openingTitled (store : Store) (title : JsString) : Option JobOpening :=
  earliest (store.jobOpenings.filter fun row => row.title == title)

/-- Inserts an opening, unless one has the title. -/
def insertOpening (jobRoleId title : JsString) (openedAt : EpochMillis) (openingId : JsString) :
    OrgTransaction (Option JsString) :=
  .execute fun store =>
    if store.jobOpenings.any fun row => row.title == title then ([], none)
    else ([.jobOpening ⟨openingId, jobRoleId, title, openedAt⟩], some openingId)

/-- Finds or creates the application of a candidate for an opening. -/
def upsertApplication (candidateId jobOpeningId applicationId : JsString) :
    OrgTransaction JsString :=
  .execute fun store =>
    match store.applications.find? fun row =>
        row.candidateId == candidateId && row.jobOpeningId == jobOpeningId with
    | some row => ([.touchApplication candidateId jobOpeningId], row.id)
    | none => ([.application ⟨applicationId, candidateId, jobOpeningId⟩], applicationId)

/-- The application an invitation hangs from, created if this candidate has none. The opening is
found by its title. -/
def applicationFor (candidateId jobRoleId title : JsString) (openedAt : EpochMillis)
    (openingId applicationId : JsString) : OrgTransaction JsString := do
  let opening ← match ← insertOpening jobRoleId title openedAt openingId with
    | some inserted => pure (some inserted)
    | none => .query fun store => (store.openingTitled title).map JobOpening.id
  match opening with
  | none => .fail .internal
  | some jobOpeningId => upsertApplication candidateId jobOpeningId applicationId

/-! ### Invitations -/

/-- The sittings taken on an invitation. -/
def Store.sittings (store : Store) (invitationId : JsString) : Nat :=
  store.attempts.countP fun row => row.invitationId == some invitationId

/-- The addresses an invitation reaches, through its application and that one's candidate. -/
def Store.invited (store : Store) (invitation : Invitation) : List JsString :=
  (store.applications.filter fun row => invitation.applicationId == some row.id).flatMap fun row =>
    (store.candidates.filter fun candidate => candidate.id == row.candidateId).map fun candidate =>
      candidate.email.key

/-- Not expired and not fully used. -/
def Store.Live (store : Store) (now : EpochMillis) (invitation : Invitation) : Prop :=
  now < invitation.expiresAt ∧ (store.sittings invitation.id : Int) < invitation.maxAttempts

instance (store : Store) (now : EpochMillis) (invitation : Invitation) :
    Decidable (store.Live now invitation) := inferInstanceAs (Decidable (_ ∧ _))

/-- The addresses of an assessment's invitations that are still live. -/
def Store.liveInvitedEmails (store : Store) (assessmentId : JsString) (now : EpochMillis) :
    List JsString :=
  (store.invitations.filter fun row => row.assessmentId == assessmentId &&
    decide (store.Live now row)).flatMap store.invited

def liveInvitedEmails (assessmentId : JsString) (now : EpochMillis) :
    OrgTransaction (List JsString) :=
  .query fun store => store.liveInvitedEmails assessmentId now

structure CreateInvitationRecord where
  assessmentId : JsString
  applicationId : JsString
  tokenHash : JsString
  expiresAt : EpochMillis
  maxAttempts : Int
  createdBy : JsString

def createInvitation (record : CreateInvitationRecord) (id : JsString) : OrgTransaction JsString :=
  .execute fun _ =>
    ([.invitation ⟨id, some record.applicationId, record.assessmentId, record.tokenHash, none,
      record.expiresAt, record.maxAttempts, none, record.createdBy⟩], id)

/-! ### The audit log -/

/-- Appends one row to the audit log. -/
def writeAudit (row : AuditRow) : OrgTransaction Unit := .execute fun _ => ([.audit row], ())

end Assaybank.Db
