import Assaybank.Db.Questions
import Assaybank.Domain.QuestionLifecycle

/-!
Owns the writing routes of the question bank (`apps/api/src/questions/routes.ts`, and
`PUT /questions/{id}/skills` of `apps/api/src/taxonomy/routes.ts`), each as the transaction its
handler runs.

A request carries what the client sends and what the server and the database supply to it: the
instant, a minted identifier, the skills its tenant sees. Its identifiers are parsed already. The
audit entry a handler writes beside its change is left out.
-/

namespace Assaybank.Api

open Assaybank.Runtime Assaybank.Library Assaybank.Contracts Assaybank.Domain Assaybank.Db

/-- A body parsed against its schema, or its refusal. -/
def parseBody {α : Type} (schema : Schema α) (body : Value) : DbTransaction α :=
  .ofExcept (parseRequestPart schema body)

/-- The question named in the path, or `not_found`. -/
def requireQuestion (includeArchived : Bool) : DbTransaction QuestionRows := do
  match ← getQuestionWithCurrentVersion includeArchived with
  | none => .fail .notFound
  | some question => pure question

/-- The version named in the path, or `not_found`. -/
def requireVersion (versionNo : Nat) : DbTransaction VersionRow := do
  match ← getVersion versionNo with
  | none => .fail .notFound
  | some version => pure version

/-- Applies a lifecycle event, or turns the refusal into a `409`. -/
def nextStatus (question : QuestionRows) (event : QuestionEvent) : DbTransaction QuestionStatus :=
  match transitionQuestion question.status event with
  | .ok status => pure status
  | .error refusal =>
      .fail ⟨.conflict, js refusal.message,
        [.text (js "from") (js refusal.source.name), .text (js "event") (js refusal.event.name)]⟩

/-- The event the target status of a `PATCH` means. -/
def eventForTargetStatus : PatchableStatus → QuestionEvent
  | .review => .submitForReview
  | .retired => .retire
  | .draft => .requestChanges

def KindContentSeverity.name : KindContentSeverity → String
  | .wrongKind => "wrong_kind"
  | .incomplete => "incomplete"

/-- The message of a refusal by the kind rule. -/
def kindContentMessage (kind : QuestionKind) (stage : KindContentStage)
    (issues : List KindContentIssue) : JsString :=
  let reasons := joinWith (js "; ") (issues.map KindContentIssue.message)
  match stage with
  | .publish => js s!"This {kind.name} question is not ready to publish: " ++ reasons ++ js "."
  | .draft => js s!"This content does not belong on a {kind.name} question: " ++ reasons ++ js "."

/-- Refuses content the kind cannot carry, or, at publication, content it still lacks. -/
def assertKindContent (kind : QuestionKind) (shape : KindContentShape) (stage : KindContentStage) :
    DbTransaction Unit :=
  match validateKindContent kind shape stage with
  | [] => pure ()
  | issues =>
      .fail ⟨.validationFailed, kindContentMessage kind stage issues, issues.map fun issue =>
        .field (js s!"body/{issue.field.name}") (js (KindContentSeverity.name issue.severity))
          (some issue.message)⟩

/-- What a refusal of a published version says about it. -/
def publishedDetails (version : VersionRow) (publishedAt : Instant) : List ErrorDetail :=
  [.number (js "version_no") version.versionNo, .instant (js "published_at") publishedAt]

/-! ### Handlers -/

/-- `POST /questions`. -/
def postQuestion (body : Value) (now : Instant) : DbTransaction QuestionRows := do
  let body ← parseBody CreateQuestionSchema body
  createQuestion ⟨body.kind, body.sourceLicense, body.externalRef⟩ now

/-- The status half of a `PATCH`. -/
def patchStatus (before : QuestionRows) : Option PatchableStatus → DbTransaction QuestionRows
  | none => pure before
  | some status => do
      let target ← nextStatus before (eventForTargetStatus status)
      match ← setQuestionStatus target with
      | none => .fail .notFound
      | some written => pure written

/-- The archival half of a `PATCH`. Archiving an archived question is no failure. -/
def patchArchived (current : QuestionRows) (now : Instant) :
    Option Bool → DbTransaction QuestionRows
  | none => pure current
  | some archived => do
      let answer ← (if archived then archiveQuestion now else restoreQuestion)
      match answer with
      | none => requireQuestion true
      | some written => pure written

/-- `PATCH /questions/:id`. -/
def patchQuestion (body : Value) (now : Instant) : DbTransaction QuestionRows := do
  let patch ← parseBody PatchQuestionSchema body
  let before ← requireQuestion true
  let current ← patchStatus before patch.status
  patchArchived current now patch.archived

/-- `DELETE /questions/:id`. -/
def deleteQuestion (now : Instant) : DbTransaction QuestionRows := do
  let before ← requireQuestion true
  return (← archiveQuestion now).getD before

/-- What a version patch comes to, over the version it is laid on. -/
def mergedContent (prior : Option VersionRow) (body : QuestionVersionInput) :
    DbTransaction VersionContent :=
  match mergeVersionContent (prior.map VersionRow.content) body with
  | none => .fail .internal
  | some content => pure content

/-- Refuses a first version that lacks what nothing can lend it. -/
def assertFirstVersionFields (prior : Option VersionRow) (body : QuestionVersionInput) :
    DbTransaction Unit :=
  match missingFirstVersionFields (prior.map VersionRow.content) body with
  | [] => pure ()
  | missing =>
      .fail ⟨.validationFailed,
        js "A question's first version must supply " ++ joinWith (js " and ") missing ++ js ".",
        missing.map (fun field => .field (js "body/" ++ field) (js "required") none) ++
          FIRST_VERSION_FIELDS.map (.text (js "first_version_fields"))⟩

/-- `POST /questions/:id/versions`. -/
def postVersion (body : Value) (id : VersionId) (now : Instant) : DbTransaction VersionRow := do
  let body ← parseBody QuestionVersionInputSchema body
  let question ← requireQuestion false
  let prior ← getLatestVersion
  assertFirstVersionFields prior body
  let content ← mergedContent prior body
  assertKindContent question.kind (shapeOfContent content) .draft
  createVersion id content now

/-- `PATCH /questions/:id/versions/:v`. -/
def patchVersion (versionNo : Nat) (body : Value) : DbTransaction VersionRow := do
  let body ← parseBody QuestionVersionInputSchema body
  let question ← requireQuestion false
  let before ← requireVersion versionNo
  match before.publishedAt with
  | some publishedAt =>
      .fail (.of .versionImmutable (publishedDetails before publishedAt ++
        [.text (js "create_version_at") (js "/questions/\x7bid\x7d/versions")]))
  | none => do
      let content ← mergedContent (some before) body
      assertKindContent question.kind (shapeOfContent content) .draft
      match ← updateVersion versionNo content with
      | none => .fail (.of .versionImmutable [])
      | some after => pure after

/-- The refusal of a second publication. -/
def alreadyPublished (details : List ErrorDetail) : ApiError :=
  ⟨.conflict, js "This version is already published.", details⟩

/-- `POST /questions/:id/versions/:v/publish`. -/
def postPublish (versionNo : Nat) (now : Instant) : DbTransaction VersionRow := do
  let question ← requireQuestion false
  let before ← requireVersion versionNo
  match before.publishedAt with
  | some publishedAt => .fail (alreadyPublished (publishedDetails before publishedAt))
  | none => do
      let status ← nextStatus question .publish
      assertKindContent question.kind (shapeOfContent before.content) .publish
      match ← publishVersion versionNo now with
      | none => .fail (alreadyPublished [])
      | some after => do
          if status ≠ question.status then
            if (← setQuestionStatus status).isNone then .fail .notFound
          pure after

/-- Refuses a body naming a skill the tenant does not see, naming each by its position. -/
def assertSkillsVisible (visible : List SkillId) (skills : List QuestionSkillInput) :
    DbTransaction Unit :=
  match skills.zipIdx.filter fun (skill, _) => !visible.contains skill.skillId with
  | [] => pure ()
  | hidden =>
      .fail ⟨.validationFailed, js "A skill in the body does not exist.", hidden.map fun (_, index) =>
        .field (js s!"body/{index}/skill_id") (js "not_found") (some (js "No such skill."))⟩

/-- `PUT /questions/:id/skills`. -/
def putSkills (body : Value) (visible : List SkillId) : DbTransaction (List QuestionSkill) := do
  let skills ← parseBody PutQuestionSkillsSchema body
  let _before ← requireQuestion false
  assertSkillsVisible visible skills
  setQuestionSkills (skills.map fun skill => ⟨skill.skillId, skill.weight⟩)
  return loadSkills (← requireQuestion false)

/-! ### Requests -/

/-- One write to the bank. -/
inductive QuestionRequest where
  | postQuestion (body : Value) (now : Instant)
  | patchQuestion (body : Value) (now : Instant)
  | deleteQuestion (now : Instant)
  | postVersion (body : Value) (id : VersionId) (now : Instant)
  | patchVersion (versionNo : Nat) (body : Value)
  | postPublish (versionNo : Nat) (now : Instant)
  | putSkills (body : Value) (visible : List SkillId)

/-- What a write answers with. -/
inductive QuestionResponse where
  | question (question : QuestionRows)
  | version (version : VersionRow)
  | skills (skills : List QuestionSkill)

/-- The transaction of a request. -/
def handle (_ : QuestionId) : QuestionRequest → DbTransaction QuestionResponse
  | .postQuestion body now => do return .question (← postQuestion body now)
  | .patchQuestion body now => do return .question (← patchQuestion body now)
  | .deleteQuestion now => do return .question (← deleteQuestion now)
  | .postVersion body id now => do return .version (← postVersion body id now)
  | .patchVersion versionNo body => do return .version (← patchVersion versionNo body)
  | .postPublish versionNo now => do return .version (← postPublish versionNo now)
  | .putSkills body visible => do return .skills (← putSkills body visible)

end Assaybank.Api
