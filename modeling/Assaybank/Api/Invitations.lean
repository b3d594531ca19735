import Assaybank.Auth.Envelope
import Assaybank.Db.Invitations

/-!
Owns the routes that publish an assessment and invite candidates to it
(`apps/api/src/assessments/invitations.ts`), and the record a composition writes (`routes.ts`).

Each route is one transaction, audited in the same one. It does not own the composition of an
assessment from a role, nor the permissions of the routes: a body is what its schema admits.
-/

namespace Assaybank.Api

open Assaybank.Runtime Assaybank.Library Assaybank.Contracts Assaybank.Domain Assaybank.Auth
open Assaybank.Db

/-- What the routes need beyond the database. -/
structure Services where
  mac : Mac
  tokenPepper : JsString
  candidateUrl : JsString
  orgId : JsString
  attemptTokenKey : JsString

/-- Who makes a request of the staff, from where, and when: as the route and its audit read the clock
of the server, and as the database has it at the transaction's start. -/
structure StaffRequest where
  userId : JsString
  ip : Option JsString
  issuedAt : EpochMillis
  auditedAt : EpochMillis
  beganAt : EpochMillis

def ASSESSMENT_CREATE_ACTION : JsString := js "assessment.create"
def ASSESSMENT_PUBLISH_ACTION : JsString := js "assessment.publish"
def INVITATION_CREATE_ACTION : JsString := js "invitation.create"
def ASSESSMENT_ENTITY : JsString := js "assessment"

/-- The row that closes an audited request of the staff. -/
def audited (request : StaffRequest) (action entityId : JsString)
    (after : List (JsString × (JsString ⊕ Int))) : OrgTransaction Unit :=
  writeAudit ⟨some request.userId, action, ASSESSMENT_ENTITY, some entityId, after, request.ip,
    request.auditedAt⟩

/-! ### Creating and publishing -/

/-- `POST /assessments/auto`, once the assessment is composed. -/
def createAssessmentRoute (request : StaffRequest) (record : CreateAssessmentRecord)
    (questionCount : Nat) (drawn : JsString) : OrgTransaction JsString := do
  let id ← createAssessment record drawn
  audited request ASSESSMENT_CREATE_ACTION id
    [(js "job_role_id", .inl record.jobRoleId), (js "question_count", .inr questionCount),
      (js "duration_seconds", .inr record.durationSeconds)]
  pure id

/-- Rules that the bank cannot currently supply, with both numbers. A rule without a skill is passed
over. -/
def shortfalls (available : SectionRuleRecord → Nat) (rules : List SectionRuleRecord) :
    List (List ErrorDetail) :=
  rules.filterMap fun rule =>
    rule.skillIds.head?.bind fun skillId =>
      if available rule < rule.pickCount then
        some [.text (js "skill_id") skillId, .number (js "needed") rule.pickCount,
          .number (js "available") (available rule)]
      else none

/-- `POST /assessments/{id}/publish`. -/
def publishRoute (request : StaffRequest) (id : JsString) (available : SectionRuleRecord → Nat) :
    OrgTransaction Unit := do
  match ← assessmentPublishState id with
  | none => .fail .notFound
  | some state =>
      if state.status = .published then
        .fail ⟨.conflict, js "This assessment is already published.", []⟩
      else if state.ruleCount = 0 then
        .fail ⟨.validationFailed,
          js "This assessment has no questions to draw, so nobody could sit it.", []⟩
      else
        let missing := shortfalls available (← assessmentRules id)
        if missing ≠ [] then
          .fail ⟨.validationFailed, js "The bank can no longer supply this assessment. Publish more questions, or compose a smaller one.", missing.flatten⟩
        else if !(← publishAssessment id) then
          .fail ⟨.conflict, js "This assessment is already published.", []⟩
        else audited request ASSESSMENT_PUBLISH_ACTION id [(js "status", .inl (js "published"))]

/-! ### Inviting -/

def DEFAULT_INVITATION_DAYS : Int := 14
def MAX_INVITATIONS_PER_REQUEST : Nat := 200

/-- The body of `POST /assessments/{id}/invitations`. -/
structure CreateInvitations where
  emails : List Email
  expiresInDays : Option Int
  maxAttempts : Option Int
  some_email : 1 ≤ emails.length ∧ emails.length ≤ MAX_INVITATIONS_PER_REQUEST
  short : ∀ email ∈ emails, email.text.length ≤ 320
  days : ∀ n ∈ expiresInDays, 1 ≤ n ∧ n ≤ 365
  sittings : ∀ n ∈ maxAttempts, 1 ≤ n ∧ n ≤ 10

/-- What is drawn for one address: the ids of the rows it may need, and the token of its link. -/
structure Draw where
  candidateId : JsString
  openingId : JsString
  applicationId : JsString
  invitationId : JsString
  token : JsString

structure CreateInvitationsRequest where
  staff : StaffRequest
  assessmentId : JsString
  body : CreateInvitations
  draws : Nat → Draw

/-- One invitation as it is issued: the only time the link is served. -/
structure IssuedInvitation where
  id : JsString
  candidateId : JsString
  email : Email
  url : JsString
  expiresAt : EpochMillis

structure CreateInvitationsResponse where
  issued : List IssuedInvitation
  skipped : List Email

namespace CreateInvitationsRequest

variable (request : CreateInvitationsRequest)

def expiresAt : EpochMillis :=
  request.staff.issuedAt + request.body.expiresInDays.getD DEFAULT_INVITATION_DAYS * 86400000

def maxAttempts : Int := request.body.maxAttempts.getD 1

end CreateInvitationsRequest

/-- A base without the slash it may end in. -/
def withoutTrailingSlash (url : JsString) : JsString :=
  if url.getLast? = some (unit '/') then url.dropLast else url

/-- The loop over the addresses. Each is issued one invitation, unless it came before or holds a
live one. -/
def issueEach (services : Services) (request : CreateInvitationsRequest) (jobRoleId title : JsString)
    (live : List JsString) :
    Nat → List Email → List JsString → CreateInvitationsResponse →
      OrgTransaction CreateInvitationsResponse
  | _, [], _, response => pure response
  | n, email :: rest, seen, response =>
      if email.key ∈ seen then
        issueEach services request jobRoleId title live (n + 1) rest seen response
      else if email.key ∈ live then
        issueEach services request jobRoleId title live (n + 1) rest (email.key :: seen)
          { response with skipped := response.skipped ++ [email] }
      else do
        let draw := request.draws n
        let candidateId ← upsertCandidate email none draw.candidateId
        let applicationId ← applicationFor candidateId jobRoleId title request.staff.beganAt
          draw.openingId draw.applicationId
        let invitationId ← createInvitation
          { assessmentId := request.assessmentId
            applicationId
            tokenHash := hashToken services.mac draw.token services.tokenPepper
            expiresAt := request.expiresAt
            maxAttempts := request.maxAttempts
            createdBy := request.staff.userId } draw.invitationId
        issueEach services request jobRoleId title live (n + 1) rest (email.key :: seen)
          { response with
            issued := response.issued ++ [
              { id := invitationId
                candidateId
                email
                url := withoutTrailingSlash services.candidateUrl ++ js "/t/" ++ draw.token
                expiresAt := request.expiresAt }] }

/-- `POST /assessments/{id}/invitations`. -/
def createInvitationsRoute (services : Services) (request : CreateInvitationsRequest) :
    OrgTransaction CreateInvitationsResponse := do
  match ← assessmentPublishState request.assessmentId with
  | none => .fail .notFound
  | some state =>
      if state.status ≠ .published then
        .fail ⟨.validationFailed, js "Publish this assessment before inviting anybody: an invitation to a draft cannot be redeemed.", []⟩
      else
        match state.jobRoleId with
        | none => .fail ⟨.validationFailed, js "This assessment is not attached to a role, so there is nothing to invite anybody to.", []⟩
        | some jobRoleId => do
            let live ← liveInvitedEmails request.assessmentId request.staff.issuedAt
            let response ← issueEach services request jobRoleId state.name live 0 request.body.emails
              [] ⟨[], []⟩
            audited request.staff INVITATION_CREATE_ACTION request.assessmentId
              [(js "issued", .inr response.issued.length),
                (js "skipped", .inr response.skipped.length)]
            pure response

end Assaybank.Api
