import Assaybank.Api.Invitations
import Assaybank.Credentials.AttemptToken

/-!
Owns the exchange of an invitation for an attempt token
(`apps/api/src/credentials/redemption.ts`, over the gateway of `redemption-postgres.ts`).

The lookup of the organisation is a transaction of its own in the source. It only reads, so it is
the first statement here. The locking read takes the row of the invitation as it is once the lock is
held, and what it joins from the statement's snapshot: the join is the statement before.

It does not own the metrics of a redemption.
-/

namespace Assaybank.Credentials

open Assaybank.Runtime Assaybank.Library Assaybank.Contracts Assaybank.Domain Assaybank.Auth
open Assaybank.Db Assaybank.Api

/-- Why a redemption is refused. -/
inductive RefusalReason where
  | malformed
  | noSuchInvitation
  | hashMismatch
  | notYetOpen
  | expired
  | assessmentNotPublished
  | invitationIncomplete
  | alreadyRedeemed
deriving DecidableEq

def RefusalReason.name : RefusalReason → String
  | .malformed => "malformed"
  | .noSuchInvitation => "no_such_invitation"
  | .hashMismatch => "hash_mismatch"
  | .notYetOpen => "not_yet_open"
  | .expired => "expired"
  | .assessmentNotPublished => "assessment_not_published"
  | .invitationIncomplete => "invitation_incomplete"
  | .alreadyRedeemed => "already_redeemed"

/-- A refused credential: the reason, and the counts that go to the log with it. The surface is
`redeem`. -/
structure Refusal where
  reason : RefusalReason
  fields : List (JsString × Nat)

def refuse (reason : RefusalReason) : Refusal := ⟨reason, []⟩

/-- What a candidate may be told about the assessment they are about to sit. -/
structure AssessmentFacts where
  id : JsString
  name : JsString
  durationSeconds : Nat
  status : QuestionStatus
  versionNo : Nat
  allowBackNav : Bool
  sectionCount : Nat

/-- One invitation, read under a row lock. -/
structure LockedInvitation where
  invitationId : JsString
  tokenHash : JsString
  candidateId : Option JsString
  opensAt : Option EpochMillis
  expiresAt : EpochMillis
  maxAttempts : Nat
  sittingsTaken : Nat
  assessment : AssessmentFacts

/-- What the route hands the service, with the clock it reads and the id it draws. -/
structure RedemptionRequest where
  token : JsString
  ip : Option JsString
  now : EpochMillis
  attemptId : JsString

/-- A successful exchange. -/
structure Redemption where
  attemptId : JsString
  orgId : JsString
  attemptToken : JsString
  expiresAt : EpochMillis
  sitting : Nat
  assessment : AssessmentFacts

abbrev RedemptionOutcome := Except Refusal Redemption

/-- The longest plaintext the endpoint hashes. -/
def MAX_INVITATION_TOKEN_LENGTH : Nat := 512

def REDEMPTION_AUDIT_ACTION : JsString := js "candidate.invitation_redeem"
def REDEMPTION_AUDIT_ENTITY : JsString := js "attempt"

/-! ### The gateway -/

/-- A count, or the error of a value that is none. -/
def requireCount (value : Int) : Except ApiError Nat :=
  if 0 ≤ value then .ok value.toNat else .error .internal

/-- What the locking read joins to an invitation. -/
structure JoinedRow where
  invitationId : JsString
  assessment : Assessment
  candidateId : Option JsString

def joinedRow? (store : Store) (tokenHash : JsString) : Option JoinedRow := do
  let invitation ← store.invitations.find? fun row => row.tokenHash == tokenHash
  let assessment ← store.assessments.find? fun row => row.id == invitation.assessmentId
  let application := store.applications.find? fun row => invitation.applicationId == some row.id
  some ⟨invitation.id, assessment, application.map Application.candidateId⟩

/-- Turns a row into the policy's input. -/
def toLockedInvitation (row : Invitation) (joined : JoinedRow) (sittingsTaken sectionCount : Nat) :
    Except ApiError LockedInvitation := do
  let maxAttempts ← requireCount row.maxAttempts
  let durationSeconds ← requireCount joined.assessment.durationSeconds
  let versionNo ← requireCount joined.assessment.versionNo
  pure {
    invitationId := row.id
    tokenHash := row.tokenHash
    candidateId := joined.candidateId
    opensAt := row.opensAt
    expiresAt := row.expiresAt
    maxAttempts
    sittingsTaken
    assessment := {
      id := joined.assessment.id
      name := joined.assessment.name
      durationSeconds
      status := joined.assessment.status
      versionNo
      allowBackNav := joined.assessment.allowBackNav
      sectionCount } }

/-- The locking read: it waits for the row, and answers it as it is then. -/
def lockInvitation (invitationId tokenHash : JsString) : OrgTransaction (Option Invitation) :=
  .execute fun store =>
    match store.invitations.find? fun row => row.id == invitationId && row.tokenHash == tokenHash with
    | some row => ([.lockInvitation row.id], some row)
    | none => ([], none)

/-- Locks the invitation of a hash, counts the sittings taken, and goes on with it. -/
def withLockedInvitation (tokenHash : JsString)
    (next : LockedInvitation → OrgTransaction RedemptionOutcome) :
    OrgTransaction (Option RedemptionOutcome) := do
  match ← .query fun store => joinedRow? store tokenHash with
  | none => pure none
  | some joined =>
      match ← lockInvitation joined.invitationId tokenHash with
      | none => pure none
      | some row => do
          let sittingsTaken ← .query fun store => store.sittings row.id
          let invitation ← .ofExcept
            (toLockedInvitation row joined sittingsTaken joined.assessment.sections.length)
          some <$> next invitation

def createAttempt (row : Attempt) : OrgTransaction JsString := .execute fun _ => ([.attempt row], row.id)

/-- The row a redemption records: the attempt it created, and which sitting it was. -/
def redemptionRow (attemptId invitationId : JsString) (sitting maxAttempts : Nat)
    (ip : Option JsString) (now : EpochMillis) : AuditRow where
  actorUserId := none
  action := REDEMPTION_AUDIT_ACTION
  entityType := REDEMPTION_AUDIT_ENTITY
  entityId := some attemptId
  after := [(js "invitation_id", .inl invitationId), (js "sitting", .inr sitting),
    (js "max_attempts", .inr maxAttempts), (js "actor_attempt_id", .inl attemptId)]
  ip := ip
  atTime := now

/-! ### The policy -/

/-- What is decided of a locked invitation: the candidate who may sit it, or a refusal. -/
def decideRedemption (services : Services) (presented : JsString) (invitation : LockedInvitation)
    (now : EpochMillis) : Except Refusal JsString :=
  if !constantTimeEquals (hashToken services.mac presented services.tokenPepper)
      invitation.tokenHash then .error (refuse .hashMismatch)
  else if invitation.opensAt.any fun opensAt => now < opensAt then .error (refuse .notYetOpen)
  else if invitation.expiresAt ≤ now then .error (refuse .expired)
  else if invitation.assessment.status ≠ .published then .error (refuse .assessmentNotPublished)
  else
    match invitation.candidateId with
    | none => .error (refuse .invitationIncomplete)
    | some candidateId =>
        if invitation.maxAttempts ≤ invitation.sittingsTaken then
          .error ⟨.alreadyRedeemed, [(js "sittings_taken", invitation.sittingsTaken),
            (js "max_attempts", invitation.maxAttempts)]⟩
        else .ok candidateId

/-- The attempt, its record and its token. -/
def takeSitting (services : Services) (request : RedemptionRequest) (invitation : LockedInvitation)
    (candidateId : JsString) : OrgTransaction RedemptionOutcome := do
  let attemptId ← createAttempt
    { id := request.attemptId
      invitationId := some invitation.invitationId
      candidateId
      assessmentId := invitation.assessment.id
      assessmentVersion := invitation.assessment.versionNo
      createdAt := request.now }
  let sitting := invitation.sittingsTaken + 1
  writeAudit (redemptionRow attemptId invitation.invitationId sitting invitation.maxAttempts
    request.ip request.now)
  let minted := mintAttemptToken services.mac
    ⟨attemptId, services.orgId, invitation.assessment.durationSeconds⟩ services.attemptTokenKey
    request.now
  pure (.ok {
    attemptId
    orgId := services.orgId
    attemptToken := minted.token
    expiresAt := minted.expiresAt
    sitting
    assessment := invitation.assessment })

/-- `POST /candidate/redeem`. -/
def redeem (services : Services) (request : RedemptionRequest) :
    OrgTransaction RedemptionOutcome := do
  let presented := trim request.token
  if presented.length = 0 ∨ MAX_INVITATION_TOKEN_LENGTH < presented.length then
    pure (.error (refuse .malformed))
  else
    let tokenHash := hashToken services.mac presented services.tokenPepper
    if !(← .query fun store => store.invitations.any fun row => row.tokenHash == tokenHash) then
      pure (.error (refuse .noSuchInvitation))
    else
      let outcome ← withLockedInvitation tokenHash fun invitation =>
        match decideRedemption services presented invitation request.now with
        | .error refusal => pure (.error refusal)
        | .ok candidateId => takeSitting services request invitation candidateId
      pure (outcome.getD (.error (refuse .noSuchInvitation)))

end Assaybank.Credentials
