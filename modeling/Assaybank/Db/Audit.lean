import Assaybank.Contracts.QuestionInput
import Assaybank.Library.Basic
import Assaybank.Library.JsonReading
import Assaybank.Runtime.Calendar
import Assaybank.Runtime.Lines
import Assaybank.Runtime.Utf8

/-!
Owns the audit log writer (`packages/db/src/audit.ts`): an entry as its caller describes it, the row
`prepareAuditEntry` resolves it to, and what `audit_log` makes of that row.

Contract: a payload is a plain JSON object, so no step of the writer depends on what else a
JavaScript object can be. The parser of addresses, `net.isIP`, is a parameter.

It does not own the transaction the row is written in, nor the columns PostgreSQL fills.
-/

namespace Assaybank.Db

open Assaybank.Runtime Assaybank.Library Assaybank.Contracts

/-! ### Names -/

def AUDIT_REASON_KEY : JsString := js "reason"

def AUDIT_ACTOR_ATTEMPT_KEY : JsString := js "actor_attempt_id"

def RESERVED_PAYLOAD_KEYS : List JsString := [AUDIT_REASON_KEY, AUDIT_ACTOR_ATTEMPT_KEY]

def REASON_REQUIRED_ACTIONS : List JsString :=
  [js "attempt.void", js "attempt.regrade", js "score.override"]

def JOB_ACTION_PREFIX : JsString := js "job."

def CANDIDATE_ACTION_PREFIX : JsString := js "candidate."

/-- `[a-z][a-z0-9]*(?:[separators][a-z0-9]+)*`, whole. -/
def isName (separators name : JsString) : Bool :=
  name.head?.any isLower &&
    (name.splitOnP separators.contains).all fun word =>
      word != [] && word.all fun c => isLower c || isDigit c

/-- `^[a-z][a-z0-9]*(?:[_-][a-z0-9]+)*(?:\.[a-z][a-z0-9]*(?:[_-][a-z0-9]+)*)+$`. -/
def ACTION_PATTERN (action : JsString) : Bool :=
  let segments := splitOn (unit '.') action
  decide (2 ≤ segments.length) && segments.all (isName (js "_-"))

/-- `^[a-z][a-z0-9]*(?:_[a-z0-9]+)*$`. -/
def ENTITY_TYPE_PATTERN (entityType : JsString) : Bool := isName (js "_") entityType

/-- What the alternatives of the pattern below match. -/
def SECRET_NAMES : List JsString :=
  ["password", "passwd", "secret", "token", "credential", "apikey", "api_key", "api-key",
    "privatekey", "private_key", "private-key", "authorization", "cookie", "pepper"].map js

/-- `password|passwd|secret|token|credential|api[_-]?key|private[_-]?key|authorization|cookie|pepper`
with `i`, anywhere in a key. Without `u` no letter outside ASCII folds into one of these. -/
def SECRET_KEY_PATTERN (key : JsString) : Bool :=
  SECRET_NAMES.any fun name => decide (name <:+: key.map lowerAscii)

def MAX_ACTION_LENGTH : Nat := 100

def MAX_ENTITY_TYPE_LENGTH : Nat := 64

def MAX_REASON_LENGTH : Nat := 2000

def MAX_PAYLOAD_BYTES : Nat := 65536

def MAX_PAYLOAD_DEPTH : Nat := 12

/-! ### Entries -/

/-- An identifier of a branded type. -/
structure BrandedId where
  text : JsString
  valid : isUuid text = true

inductive AuditActor where
  | staff (userId : BrandedId)
  | candidate (attemptId : BrandedId)
  | job

/-- A plain JSON object. -/
structure AuditPayload where
  fields : List (JsString × Value)
  plain : isPlain (.object fields) = true

/-- What is `null` or `undefined` is `none`; so is the time of an invalid `Date`. -/
structure AuditEntry where
  orgId : BrandedId
  actor : AuditActor
  action : JsString
  entityType : JsString
  entityId : Option JsString
  before : Option AuditPayload
  after : Option AuditPayload
  reason : Option JsString
  ip : Option JsString
  /-- `at`, in milliseconds from the epoch. -/
  atMillis : Option Int

/-- A refused entry: the class of the error, the action it names, and its message. -/
structure AuditEntryError where
  name : JsString
  action : JsString
  message : JsString
deriving DecidableEq

def auditEntryError (action message : JsString) : AuditEntryError :=
  ⟨js "AuditEntryError", action, message⟩

def auditReasonRequiredError (action : JsString) : AuditEntryError :=
  ⟨js "AuditReasonRequiredError", action,
    js "The action " ++ jsonString action ++ js " may not be recorded without a reason. " ++
      js "Voiding an attempt (FR-25), overriding a score (FR-21) and using the elevated " ++
      js "background role (ADR-010) all affect a candidate or bypass a policy, and a " ++
      js "record of one that does not say why cannot answer the question it exists for."⟩

/-! ### Checks -/

section Checks

variable (isIP : JsString → Nat)

def isAuditableAddress (value : JsString) : Bool := !value.contains (unit '%') && isIP value != 0

end Checks

def requiresReason (action : JsString) : Bool :=
  REASON_REQUIRED_ACTIONS.contains action || JOB_ACTION_PREFIX.isPrefixOf action

/-- The `actor_user_id` an actor writes. -/
def actorColumn (actor : AuditActor) (action : JsString) :
    Except AuditEntryError (Option BrandedId) :=
  match actor with
  | .staff userId =>
      if JOB_ACTION_PREFIX.isPrefixOf action || CANDIDATE_ACTION_PREFIX.isPrefixOf action then
        .error (auditEntryError action
          (js "A staff actor may not record " ++ jsonString action ++ js ": the " ++
            jsonString JOB_ACTION_PREFIX ++ js " and " ++ jsonString CANDIDATE_ACTION_PREFIX ++
            js " prefixes are reserved for the " ++
            js "rows whose actor_user_id is null, and are the only thing that tells those apart."))
      else .ok (some userId)
  | .candidate _ =>
      if CANDIDATE_ACTION_PREFIX.isPrefixOf action then .ok none
      else
        .error (auditEntryError action
          (js "A candidate actor must record a " ++ jsonString CANDIDATE_ACTION_PREFIX ++
            js " action. " ++
            js "A candidate has no user row (docs/03 §1), so actor_user_id is null and the " ++
            js "prefix is what distinguishes \"a candidate did this\" from \"nobody recorded who " ++
            js "did\"."))
  | .job =>
      if JOB_ACTION_PREFIX.isPrefixOf action then .ok none
      else
        .error (auditEntryError action
          (js "A background job must record a " ++ jsonString JOB_ACTION_PREFIX ++ js " action. " ++
            js "ADR-010: actor_user_id is null for a job, so the prefix is the only thing " ++
            js "separating \"a machine did this\" from \"nobody recorded who did this\"."))

inductive PayloadColumn where
  | before
  | after
deriving DecidableEq

def PayloadColumn.text : PayloadColumn → JsString
  | .before => js "before"
  | .after => js "after"

mutual

/-- Walks a payload, refusing reserved keys, secret-shaped keys and runaway nesting. -/
def inspectPayload (action : JsString) (column : PayloadColumn) :
    Value → Nat → Except AuditEntryError Unit
  | value, depth =>
      if depth > MAX_PAYLOAD_DEPTH then
        .error (auditEntryError action
          (js "The " ++ column.text ++ js " payload nests deeper than " ++
            natText MAX_PAYLOAD_DEPTH ++ js " levels. An audit " ++
            js "payload is a description of a change, not a serialised object graph."))
      else
        match value with
        | .array items => inspectItems action column items depth
        | .object members => inspectEntries action column members depth
        | _ => .ok ()

def inspectItems (action : JsString) (column : PayloadColumn) :
    List Value → Nat → Except AuditEntryError Unit
  | [], _ => .ok ()
  | item :: rest, depth => do
      inspectPayload action column item (depth + 1)
      inspectItems action column rest depth

def inspectEntries (action : JsString) (column : PayloadColumn) :
    List (JsString × Value) → Nat → Except AuditEntryError Unit
  | [], _ => .ok ()
  | (key, nested) :: rest, depth =>
      if depth = 0 ∧ column = .after ∧ RESERVED_PAYLOAD_KEYS.contains key then
        .error (auditEntryError action
          (js "The after payload may not set " ++ jsonString key ++ js ": this writer owns it. " ++
            js "Two values arriving for one key means one of them is silently discarded, and " ++
            js "an audit record is the last place to guess which."))
      else if SECRET_KEY_PATTERN key then
        .error (auditEntryError action
          (js "The " ++ column.text ++ js " payload carries " ++ jsonString key ++
            js ", whose name says it is a " ++
            js "secret. The audit log is retained for seven years (docs/12 §9), which is longer " ++
            js "than any credential should live. Record an identifier, never the credential."))
      else do
        inspectPayload action column nested (depth + 1)
        inspectEntries action column rest depth

end

/-- A payload column's text, or nothing when there is nothing to write. Plain data is always
serialised. -/
def serialise (payload : List (JsString × Value)) : Option JsString :=
  if payload = [] then none
  else
    let json := jsonText (.object payload)
    if json = js "\x7b\x7d" then none else some json

/-! ### The row -/

structure PreparedAuditEntry where
  orgId : BrandedId
  actorUserId : Option BrandedId
  action : JsString
  entityType : JsString
  entityId : Option JsString
  before : Option JsString
  after : Option JsString
  ip : Option JsString
  /-- `at`, as the parameter of the `timestamptz` column. -/
  atText : JsString

def preparedAction (entry : AuditEntry) : Except AuditEntryError JsString :=
  let action := trim entry.action
  if action.length = 0 ∨ action.length > MAX_ACTION_LENGTH then
    .error (auditEntryError entry.action
      (js "An audit action must be between 1 and " ++ natText MAX_ACTION_LENGTH ++
        js " characters."))
  else if ACTION_PATTERN action then .ok action
  else
    .error (auditEntryError entry.action
      (jsonString action ++ js " is not an audit action. Actions are lowercase, dotted " ++
        js "`entity.verb` — `attempt.void`, `question.publish`, `job.deadline_sweep` — because " ++
        js "GET /audit-log filters on them and 0004 constrains them by prefix."))

def preparedEntityType (action : JsString) (entry : AuditEntry) :
    Except AuditEntryError JsString :=
  let entityType := trim entry.entityType
  if entityType.length = 0 ∨ entityType.length > MAX_ENTITY_TYPE_LENGTH ∨
      ¬ ENTITY_TYPE_PATTERN entityType then
    .error (auditEntryError action
      (jsonString entry.entityType ++ js " is not an entity type. Use lowercase snake case " ++
        js "naming the kind of thing acted on — `attempt`, `question_version`, `system`."))
  else .ok entityType

def preparedEntityId (action : JsString) (entry : AuditEntry) :
    Except AuditEntryError (Option JsString) :=
  match entry.entityId with
  | none => .ok none
  | some entityId =>
      if isUuid entityId then .ok (some entityId)
      else
        .error (auditEntryError action
          (js "entityId must be a UUID. It is written to a uuid column, so a malformed one " ++
            js "would fail mid-transaction and roll the action back for a formatting mistake."))

/-- The reason that is recorded, which may be empty. -/
def preparedReason (action : JsString) (entry : AuditEntry) :
    Except AuditEntryError (Option JsString) :=
  let reason := entry.reason.map trim
  if reason.any fun text => decide (text.length > MAX_REASON_LENGTH) then
    .error (auditEntryError action
      (js "A reason may not exceed " ++ natText MAX_REASON_LENGTH ++ js " characters."))
  else if reason.all (·.length == 0) && requiresReason action then
    .error (auditReasonRequiredError action)
  else .ok reason

/-- The reason, when there is one. -/
def reasonField (reason : Option JsString) : List (JsString × Value) :=
  match reason with
  | some text => if text.length > 0 then [(AUDIT_REASON_KEY, .string text)] else []
  | none => []

/-- The attempt a candidate acts under. -/
def attemptField (actor : AuditActor) : List (JsString × Value) :=
  match actor with
  | .candidate attemptId => [(AUDIT_ACTOR_ATTEMPT_KEY, .string attemptId.text)]
  | _ => []

/-- The writer's own keys. -/
def ownFields (reason : Option JsString) (actor : AuditActor) : List (JsString × Value) :=
  reasonField reason ++ attemptField actor

/-- What a caller's payload holds. -/
def callerFields (payload : Option AuditPayload) : List (JsString × Value) :=
  payload.elim [] AuditPayload.fields

def inspectColumn (action : JsString) (column : PayloadColumn) (payload : Option AuditPayload) :
    Except AuditEntryError Unit :=
  match payload with
  | none => .ok ()
  | some payload => inspectPayload action column (.object payload.fields) 0

/-- `Buffer.byteLength(before ?? '') + Buffer.byteLength(after ?? '')`. -/
def payloadBytes (before after : Option JsString) : Nat :=
  (utf8Bytes (before.getD [])).length + (utf8Bytes (after.getD [])).length

def preparedIp (isIP : JsString → Nat) (action : JsString) (entry : AuditEntry) :
    Except AuditEntryError (Option JsString) :=
  match entry.ip with
  | none => .ok none
  | some ip =>
      if ip = [] then .ok none
      else if isAuditableAddress isIP ip then .ok (some ip)
      else
        .error (auditEntryError action
          (js "ip is not an IPv4 or IPv6 address. It is written to an inet column, so an " ++
            js "unparseable one would abort the transaction the action is running in — which " ++
            js "turns a mangled X-Forwarded-For header into a rolled-back action. Parse the " ++
            js "client address before handing it over, and pass null when there is not one."))

/-- Validates an entry and resolves it to columns. -/
def prepareAuditEntry (isIP : JsString → Nat) (entry : AuditEntry) :
    Except AuditEntryError PreparedAuditEntry := do
  let action ← preparedAction entry
  let entityType ← preparedEntityType action entry
  let entityId ← preparedEntityId action entry
  let reason ← preparedReason action entry
  let actorUserId ← actorColumn entry.actor action
  inspectColumn action .before entry.before
  inspectColumn action .after entry.after
  let before := serialise (callerFields entry.before)
  let after := serialise (callerFields entry.after ++ ownFields reason entry.actor)
  if payloadBytes before after > MAX_PAYLOAD_BYTES then
    .error (auditEntryError action
      (js "The before and after payloads total " ++ natText (payloadBytes before after) ++
        js " bytes, over the " ++ natText MAX_PAYLOAD_BYTES ++
        js "-byte budget. Record the fields that changed, not the row."))
  else
    match entry.atMillis with
    | none => .error (auditEntryError action (js "at is not a valid instant."))
    | some millis => do
        let ip ← preparedIp isIP action entry
        .ok ⟨entry.orgId, actorUserId, action, entityType, entityId, before, after, ip,
          toISOString millis⟩

end Assaybank.Db
