import Assaybank.Contracts.OrgSettings
import Assaybank.Db.AuditLog
import Assaybank.Library.RowLocks

/-!
Owns `PATCH /org/settings` (`apps/api/src/org/routes.ts`, `apps/api/src/org/settings.ts`) inside the
audited transaction of `apps/api/src/audit.ts`, beside any number of others on the same row.

Contract: whatever the interleaving, what is served of an organisation is, field by field, what the
last committed patch that names the field says, and the audit log holds each committed change with
the settings before it and after it (`settings_run`). An accepted patch of an organisation that
exists is committed when PostgreSQL stores its strings (`patch_commits`).

It does not own who may send the request. The parser of addresses, `net.isIP`, is a parameter.
-/

namespace Assaybank.Org

open Assaybank.Runtime Assaybank.Library Assaybank.Contracts Assaybank.Db

deriving instance DecidableEq for BrandedId

/-! ### The rows -/

/-- The columns of `organizations` this endpoint works with. -/
structure OrganizationRow where
  name : JsString
  slug : JsString
  settings : Value

/-- A row of `audit_log`. -/
structure AuditLogRow where
  prepared : PreparedAuditEntry
  before : Option Value
  after : Option Value

/-- What the database holds of one organisation. -/
structure OrgRows where
  organization : Option OrganizationRow
  auditLog : List AuditLogRow

/-! ### The request -/

def ORG_SETTINGS_UPDATE_ACTION : JsString := js "org.settings.update"

/-- What a `PATCH` brings: who sends it, its body, the address to record, and the clock when the
handler starts and when it answers. -/
structure PatchRequest where
  userId : BrandedId
  body : Value
  clientAddress : Option JsString
  atMillis : Int
  answeredMillis : Int

inductive RequestError where
  | validationFailed (issues : List Issue)
  | reasonRequired (action : JsString)
  | notFound
  | internal
  /-- A refusal of the audit writer, served as `internal`. -/
  | auditEntry (error : AuditEntryError)
  /-- A statement that raises, served as `internal`. -/
  | database

structure OrgSettingsResponse where
  orgId : BrandedId
  name : JsString
  slug : JsString
  settings : OrgSettings
  serverTime : JsString

/-- The organisation row, as the handler works with it. -/
structure StoredOrg where
  id : BrandedId
  name : JsString
  slug : JsString
  stored : List (JsString × Value)
  settings : OrgSettings

/-- `asApiError`: one refusal of the writer crosses to the client. -/
def asApiError (error : AuditEntryError) : RequestError :=
  if error.name = js "AuditReasonRequiredError" then .reasonRequired error.action
  else .auditEntry error

def toResponse (org : StoredOrg) (settings : OrgSettings) (atMillis : Int) : OrgSettingsResponse :=
  ⟨org.id, org.name, org.slug, settings, toISOString atMillis⟩

/-- The last check before a document is written and served. -/
def assertServable (settings : OrgSettings) : Except RequestError OrgSettings :=
  match OrgSettingsSchema.safeParse (OrgSettingsSchema.encode settings) with
  | none => .error .internal
  | some served => .ok served

/-- `SELECT … FOR UPDATE`, and what is made of its row. -/
def readOrg (orgId : BrandedId) (rows : OrgRows) : Option StoredOrg :=
  rows.organization.map fun row =>
    { id := orgId
      name := row.name
      slug := row.slug
      stored := recordMembers row.settings
      settings := projectOrgSettings (.object (recordMembers row.settings)) }

/-- The two sections, as a document holds them. -/
def settingsSections (settings : OrgSettings) : List (JsString × Value) :=
  [(js "branding", OrgBrandingSchema.encode settings.branding),
    (js "proctoring_defaults", OrgProctoringDefaultsSchema.encode settings.proctoringDefaults)]

/-- The two sections this build knows, over whatever else the column held. -/
def settingsDocument (stored : List (JsString × Value)) (next : OrgSettings) : Value :=
  .object (spreadOver stored (settingsSections next))

/-- The `UPDATE`. Its parameter is the text of the document, cast to `jsonb`. -/
def writeOrgSettings (org : StoredOrg) (next : OrgSettings) (rows : OrgRows) :
    Except RequestError (OrgRows × Unit) :=
  match jsonbOf (jsonText (settingsDocument org.stored next)) with
  | none => .error .database
  | some document =>
      match rows.organization with
      | none => .error .internal
      | some row => .ok ({ rows with organization := some { row with settings := document } }, ())

/-- The `INSERT` into `audit_log`, with the casts of its columns and the reason constraint. -/
def insertAuditLog (prepared : PreparedAuditEntry) (rows : OrgRows) :
    Except RequestError (OrgRows × Unit) :=
  match castJsonb prepared.before, castJsonb prepared.after with
  | some before, some after =>
      if auditLogReasonRequired prepared.action after && isTimestamptz prepared.atText then
        .ok ({ rows with auditLog := rows.auditLog ++ [⟨prepared, before, after⟩] }, ())
      else .error .database
  | _, _ => .error .database

private theorem isPlain_nullable (text : Option JsString) :
    isPlain (text.elim .null .string) = true := by
  cases text with
  | none => rfl
  | some text => rfl

private theorem isPlain_branding (branding : OrgBranding) :
    isPlain (OrgBrandingSchema.encode branding) = true := by
  show (decide ([js "display_name", js "primary_colour", js "logo_url"]).Nodup &&
    (isPlain (branding.displayName.elim .null .string) &&
      (isPlain (branding.primaryColour.elim .null .string) &&
        (isPlain (branding.logoUrl.elim .null .string) && true)))) = true
  rw [isPlain_nullable, isPlain_nullable, isPlain_nullable]
  decide

private theorem settingsSections_distinct (settings : OrgSettings) :
    ((settingsSections settings).map Prod.fst).Nodup := by
  show [js "branding", js "proctoring_defaults"].Nodup
  decide

theorem isPlain_settings (settings : OrgSettings) :
    isPlain (.object (settingsSections settings)) = true := by
  have proctoring : isPlain (OrgProctoringDefaultsSchema.encode settings.proctoringDefaults) =
      true := by
    show (decide ([js "require_webcam", js "require_screen_recording",
      js "require_id_check"]).Nodup && true) = true
    decide
  simp only [Library.isPlain, settingsSections_distinct, decide_true, Bool.true_and]
  show (isPlain (OrgBrandingSchema.encode settings.branding) &&
    (isPlain (OrgProctoringDefaultsSchema.encode settings.proctoringDefaults) && true)) = true
  rw [isPlain_branding, proctoring]
  rfl

/-- Settings as a payload of the audit log. -/
def settingsPayload (settings : OrgSettings) : AuditPayload where
  fields := settingsSections settings
  plain := isPlain_settings settings

/-- The entry as the route describes it, before the work. -/
def patchEntry (orgId : BrandedId) (request : PatchRequest) : AuditEntry where
  orgId := orgId
  actor := .staff request.userId
  action := ORG_SETTINGS_UPDATE_ACTION
  entityType := js "organization"
  entityId := some orgId.text
  before := none
  after := none
  reason := none
  ip := request.clientAddress
  atMillis := some request.atMillis

/-- `entry.amend({ before, after })`. -/
def amended (entry : AuditEntry) (before after : OrgSettings) : AuditEntry :=
  { entry with before := some (settingsPayload before), after := some (settingsPayload after) }

section Patch

variable (isIP : JsString → Nat)

def prepared (entry : AuditEntry) : Except RequestError PreparedAuditEntry :=
  match prepareAuditEntry isIP entry with
  | .ok row => .ok row
  | .error error => .error (asApiError error)

/-- The work of the handler and the record of it, in one transaction. -/
def patchRow (orgId : BrandedId) (request : PatchRequest) (patch : OrgSettingsPatch) :
    Transaction OrgRows RequestError OrgSettingsResponse := do
  let found ← .query (readOrg orgId)
  match found with
  | none => .fail .notFound
  | some org => do
      let next ← .ofExcept (assertServable (mergeOrgSettings org.settings patch))
      .execute (writeOrgSettings org next)
      let row ← .ofExcept (prepared isIP (amended (patchEntry orgId request) org.settings next))
      .execute (insertAuditLog row)
      pure (toResponse org next request.answeredMillis)

/-- `PATCH /org/settings`: the body is parsed and the entry looked at before the transaction. -/
def patchOrgSettings (orgId : BrandedId) (request : PatchRequest) :
    Transaction OrgRows RequestError OrgSettingsResponse :=
  match OrgSettingsPatchSchema.safeParse request.body with
  | none => .fail (.validationFailed (OrgSettingsPatchSchema.parse request.body).issues)
  | some patch => do
      let _ ← .ofExcept (prepared isIP (patchEntry orgId request))
      patchRow isIP orgId request patch

end Patch

/-! ### One request -/

/-- What PostgreSQL holds in a `jsonb` column. -/
def IsJsonb (value : Value) : Prop :=
  isPlain value = true ∧ everyString isCharacterText value = true

/-- An organisation whose settings are what a `jsonb` column holds. -/
def Stored (rows : OrgRows) : Prop :=
  ∀ org, rows.organization = some org → IsJsonb org.settings

/-- The change a request asks for. -/
def patchOf (request : PatchRequest) : Option OrgSettingsPatch :=
  OrgSettingsPatchSchema.safeParse request.body

/-- What a row of the audit log is to say of a request and the change it made. -/
structure Records (orgId : BrandedId) (request : PatchRequest) (before after : OrgSettings)
    (row : AuditLogRow) : Prop where
  organization : row.prepared.orgId = orgId
  action : row.prepared.action = ORG_SETTINGS_UPDATE_ACTION
  entityId : row.prepared.entityId = some orgId.text
  actor : row.prepared.actorUserId = some request.userId
  time : row.prepared.atText = toISOString request.atMillis
  before : row.before = some (OrgSettingsSchema.encode before)
  after : row.after = some (OrgSettingsSchema.encode after)

theorem projectOrgSettings_members (stored : Value) :
    projectOrgSettings (.object (recordMembers stored)) = projectOrgSettings stored := by
  cases stored <;> rfl

theorem recordMembers_jsonb {stored : Value} (jsonb : IsJsonb stored) :
    isPlain (.object (recordMembers stored)) = true ∧
      everyMember isCharacterText (recordMembers stored) = true := by
  cases stored with
  | object members => exact jsonb
  | _ => exact ⟨rfl, rfl⟩

/-- What the column takes is the document, when its strings are characters. -/
theorem jsonbOf_settingsDocument {stored : Value} (jsonb : IsJsonb stored) (next : OrgSettings) :
    jsonbOf (jsonText (settingsDocument (recordMembers stored) next)) =
      if everyMember isCharacterText (settingsSections next) = true then
        some (settingsDocument (recordMembers stored) next)
      else none := by
  obtain ⟨plain, characters⟩ := recordMembers_jsonb jsonb
  unfold settingsDocument
  rw [jsonbOf_jsonText (isPlain_spreadOver plain (isPlain_settings next))]
  show (if everyMember isCharacterText (spreadOver _ _) = true then _ else _) = _
  rw [everyMember_spreadOver (settingsSections_distinct next) characters]

/-- What a document holds beside the two sections. -/
theorem member?_settingsDocument (stored : List (JsString × Value)) (next : OrgSettings)
    (name : JsString) :
    member? (recordMembers (settingsDocument stored next)) name =
      (member? (settingsSections next) name).or (member? stored name) :=
  member?_spreadOver _ _ _

/-- The settings that were written are those that are served. -/
theorem projectOrgSettings_settingsDocument (stored : List (JsString × Value)) {next : OrgSettings}
    (accepted : OrgSettingsSchema.Accepts next) :
    projectOrgSettings (settingsDocument stored next) = next := by
  refine projectOrgSettings_written accepted ?_ ?_
  · rw [member?_settingsDocument]
    rfl
  · rw [member?_settingsDocument]
    rfl

/-- The last check passes what merging gives, as it is. -/
theorem assertServable_merged {current : OrgSettings} {patch : OrgSettingsPatch}
    (before : OrgSettingsSchema.Accepts current) (accepted : OrgSettingsPatchSchema.Accepts patch) :
    assertServable (mergeOrgSettings current patch) = .ok (mergeOrgSettings current patch) := by
  have merged := mergeOrgSettings_accepted before accepted
  unfold assertServable
  rw [Schema.safeParse_eq_some.mpr merged]

/-- The row the table takes of an entry that was prepared. -/
private theorem insertAuditLog_eq_ok {prepared : PreparedAuditEntry} {rows after : OrgRows}
    (inserted : insertAuditLog prepared rows = .ok (after, ())) :
    ∃ row : AuditLogRow, row.prepared = prepared ∧
      castJsonb prepared.before = some row.before ∧ castJsonb prepared.after = some row.after ∧
        after = { rows with auditLog := rows.auditLog ++ [row] } := by
  unfold insertAuditLog at inserted
  split at inserted
  · rename_i before next castBefore castAfter
    split at inserted
    · cases inserted
      exact ⟨⟨prepared, before, next⟩, rfl, castBefore, castAfter, rfl⟩
    · cases inserted
  · cases inserted

/-- A payload that was serialised and cast back is the object it was. -/
private theorem castJsonb_settings {settings : OrgSettings} {cast : Option Value}
    (stored : castJsonb (serialise (settingsSections settings)) = some cast) :
    cast = some (OrgSettingsSchema.encode settings) := by
  rw [castJsonb_serialise (isPlain_settings settings)] at stored
  split at stored
  · cases stored
    rfl
  · cases stored

theorem preparedAction_settings {entry : AuditEntry}
    (named : entry.action = ORG_SETTINGS_UPDATE_ACTION) :
    preparedAction entry = .ok ORG_SETTINGS_UPDATE_ACTION := by
  unfold preparedAction
  rw [named]
  rfl

private theorem actorColumn_settings (userId : BrandedId) :
    actorColumn (.staff userId) ORG_SETTINGS_UPDATE_ACTION = .ok (some userId) := rfl

theorem preparedEntityId_org {action : JsString} {entry : AuditEntry} {orgId : BrandedId}
    (named : entry.entityId = some orgId.text) :
    preparedEntityId action entry = .ok (some orgId.text) := by
  unfold preparedEntityId
  rw [named]
  exact if_pos orgId.valid

private theorem prepareAuditEntry_orgId {isIP : JsString → Nat} {entry : AuditEntry}
    {row : PreparedAuditEntry} (made : prepareAuditEntry isIP entry = .ok row) :
    row.orgId = entry.orgId := by
  unfold prepareAuditEntry at made
  obtain ⟨action, _, made⟩ := bind_eq_ok.mp made
  obtain ⟨entityType, _, made⟩ := bind_eq_ok.mp made
  obtain ⟨entityId, _, made⟩ := bind_eq_ok.mp made
  obtain ⟨reason, _, made⟩ := bind_eq_ok.mp made
  obtain ⟨actorUserId, _, made⟩ := bind_eq_ok.mp made
  obtain ⟨_, _, made⟩ := bind_eq_ok.mp made
  obtain ⟨_, _, made⟩ := bind_eq_ok.mp made
  simp only at made
  split at made
  · cases made
  · split at made
    · cases made
    · obtain ⟨ip, _, made⟩ := bind_eq_ok.mp made
      cases made
      rfl

section Requests

variable {isIP : JsString → Nat} {orgId : BrandedId} {request : PatchRequest}

private theorem prepared_eq_ok {entry : AuditEntry} {row : PreparedAuditEntry}
    (made : prepared isIP entry = .ok row) : prepareAuditEntry isIP entry = .ok row := by
  unfold prepared at made
  split at made
  · rename_i found same
    cases made
    exact same
  · cases made

/-- What the log says of a request whose entry was prepared and inserted. -/
private theorem records_of_prepared {before next : OrgSettings} {row : AuditLogRow}
    (made : prepared isIP (amended (patchEntry orgId request) before next) = .ok row.prepared)
    (castBefore : castJsonb row.prepared.before = some row.before)
    (castAfter : castJsonb row.prepared.after = some row.after) :
    Records orgId request before next row := by
  have prepared := prepared_eq_ok made
  have accepted := prepareAuditEntry_accepted prepared
  have action : row.prepared.action = ORG_SETTINGS_UPDATE_ACTION :=
    (Except.ok.inj ((preparedAction_settings rfl).symm.trans accepted.action)).symm
  have actor := accepted.actor
  rw [action] at actor
  obtain ⟨millis, clock, time⟩ := accepted.time
  rw [accepted.before] at castBefore
  rw [accepted.after] at castAfter
  have fields : recordedAfter (amended (patchEntry orgId request) before next) =
      settingsSections next := List.append_nil _
  rw [fields] at castAfter
  exact {
    organization := prepareAuditEntry_orgId prepared
    action := action
    entityId := (Except.ok.inj ((preparedEntityId_org rfl).symm.trans accepted.entityId)).symm
    actor := (Except.ok.inj ((actorColumn_settings request.userId).symm.trans actor)).symm
    time := by
      cases clock
      exact time
    before := castJsonb_settings castBefore
    after := castJsonb_settings castAfter }

/-- What a request that runs through does to the rows. -/
theorem patchOrgSettings_ran {rows after : OrgRows} {response : OrgSettingsResponse}
    (stored : Stored rows)
    (ran : (patchOrgSettings isIP orgId request).run rows = .ok (after, response)) :
    ∃ patch org row, patchOf request = some patch ∧ rows.organization = some org ∧
      after = ⟨some { org with
          settings := settingsDocument (recordMembers org.settings)
            (mergeOrgSettings (projectOrgSettings org.settings) patch) },
        rows.auditLog ++ [row]⟩ ∧
      everyMember isCharacterText
        (settingsSections (mergeOrgSettings (projectOrgSettings org.settings) patch)) = true ∧
      Records orgId request (projectOrgSettings org.settings)
        (mergeOrgSettings (projectOrgSettings org.settings) patch) row := by
  unfold patchOrgSettings at ran
  split at ran
  · cases ran
  · rename_i patch parsed
    obtain ⟨_, _, ran⟩ := Transaction.run_ofExcept_bind_ok.mp ran
    unfold patchRow at ran
    rw [Transaction.run_query_bind] at ran
    split at ran
    · cases ran
    · rename_i org read
      obtain ⟨row, present, same⟩ := Option.map_eq_some_iff.mp read
      subst same
      obtain ⟨next, checked, ran⟩ := Transaction.run_ofExcept_bind_ok.mp ran
      rw [projectOrgSettings_members] at checked ran
      have accepted := Schema.accepts_of_parse (Schema.safeParse_eq_some.mp parsed)
      rw [assertServable_merged (projectOrgSettings_accepted row.settings) accepted] at checked
      cases checked
      obtain ⟨middle, _, wrote, ran⟩ := Transaction.run_execute_bind_ok.mp ran
      obtain ⟨entry, made, ran⟩ := Transaction.run_ofExcept_bind_ok.mp ran
      obtain ⟨last, _, inserted, ran⟩ := Transaction.run_execute_bind_ok.mp ran
      cases ran
      obtain ⟨logged, sameEntry, castBefore, castAfter, sameRows⟩ := insertAuditLog_eq_ok inserted
      subst sameEntry
      unfold writeOrgSettings at wrote
      rw [jsonbOf_settingsDocument (stored row present)] at wrote
      by_cases characters : everyMember isCharacterText (settingsSections
          (mergeOrgSettings (projectOrgSettings row.settings) patch)) = true
      · rw [if_pos characters, present] at wrote
        cases wrote
        exact ⟨patch, row, logged, parsed, present, sameRows, characters,
          records_of_prepared made castBefore castAfter⟩
      · rw [if_neg characters] at wrote
        cases wrote

/-! ### Every run -/

/-- A change of the settings, with the request that made it. -/
structure Change where
  request : PatchRequest
  before : OrgSettings
  after : OrgSettings

/-- What requests change, one after another. -/
def changes (initial : OrgSettings) : List PatchRequest → List Change
  | [] => []
  | request :: rest =>
      match patchOf request with
      | none => changes initial rest
      | some patch =>
          ⟨request, initial, mergeOrgSettings initial patch⟩ ::
            changes (mergeOrgSettings initial patch) rest

/-- What a sequence of requests has made of an organisation and of its log. -/
structure Patched (orgId : BrandedId) (org : OrganizationRow) (log : List AuditLogRow)
    (requests : List PatchRequest) (after : OrgRows) (row : OrganizationRow)
    (logged : List AuditLogRow) : Prop where
  present : after.organization = some row
  identity : row.name = org.name ∧ row.slug = org.slug
  settings : projectOrgSettings row.settings =
    settingsAfter (projectOrgSettings org.settings) (requests.filterMap patchOf)
  others : ∀ name, name ∉ [js "branding", js "proctoring_defaults"] →
    member? (recordMembers row.settings) name = member? (recordMembers org.settings) name
  log : after.auditLog = log ++ logged
  records : List.Forall₂
    (fun change row => Records orgId change.request change.before change.after row)
    (changes (projectOrgSettings org.settings) requests) logged
  parsed : ∀ request ∈ requests, (patchOf request).isSome = true

private theorem isJsonb_settingsDocument {stored : Value} (jsonb : IsJsonb stored)
    {next : OrgSettings}
    (characters : everyMember isCharacterText (settingsSections next) = true) :
    IsJsonb (settingsDocument (recordMembers stored) next) := by
  obtain ⟨plain, text⟩ := recordMembers_jsonb jsonb
  refine ⟨isPlain_spreadOver plain (isPlain_settings next), ?_⟩
  show everyMember isCharacterText (spreadOver _ _) = true
  rw [everyMember_spreadOver (settingsSections_distinct next) text]
  exact characters

private theorem settingsSections_other (next : OrgSettings) {name : JsString}
    (other : name ∉ [js "branding", js "proctoring_defaults"]) :
    member? (settingsSections next) name = none := by
  have absent : name ∉ (settingsSections next).map Prod.fst := other
  unfold member?
  rw [find?_absent absent]
  rfl

private theorem patched_of_runs {rows after : OrgRows} {requests : List PatchRequest}
    (runs : System.Runs (patchOrgSettings isIP) orgId rows requests after)
    (stored : Stored rows) {org : OrganizationRow} (present : rows.organization = some org) :
    ∃ row logged, Patched orgId org rows.auditLog requests after row logged := by
  induction runs generalizing org with
  | unchanged rows =>
      refine ⟨org, [], present, ⟨rfl, rfl⟩, rfl, fun _ _ => rfl, (List.append_nil _).symm, .nil, ?_⟩
      intro request inside
      cases inside
  | @commit rows middle after request rest response ran later inductionHypothesis =>
      obtain ⟨patch, found, entry, parsed, read, wrote, characters, records⟩ :=
        patchOrgSettings_ran stored ran
      have same : found = org := Option.some.inj (read.symm.trans present)
      subst same
      subst wrote
      have jsonb := isJsonb_settingsDocument (stored found present) characters
      have accepted := mergeOrgSettings_accepted (projectOrgSettings_accepted found.settings)
        (Schema.accepts_of_parse (Schema.safeParse_eq_some.mp parsed))
      have served := projectOrgSettings_settingsDocument (recordMembers found.settings) accepted
      obtain ⟨row, logged, patched⟩ := inductionHypothesis
        (by
          intro org isOrg
          cases isOrg
          exact jsonb) rfl
      refine ⟨row, entry :: logged, patched.present, patched.identity, ?_, ?_, ?_, ?_, ?_⟩
      · have settings := patched.settings
        rw [served] at settings
        rw [settings, ← foldl_mergeOrgSettings, ← foldl_mergeOrgSettings,
          List.filterMap_cons_some parsed, List.foldl_cons]
      · intro name other
        rw [patched.others name other]
        show member? (recordMembers (settingsDocument _ _)) name = _
        rw [member?_settingsDocument, settingsSections_other _ other, Option.none_or]
      · rw [patched.log]
        exact List.append_assoc _ _ _
      · have later := patched.records
        rw [served] at later
        unfold changes
        rw [parsed]
        exact .cons records later
      · intro other inside
        cases List.mem_cons.mp inside with
        | inl same => rw [same, parsed, Option.isSome_some]
        | inr inside => exact patched.parsed other inside

/-- Whatever the interleaving of patches, each stopped at any statement: what is served of an
organisation is field by field what the last committed patch that names the field says, what the
column held beside the two sections is still there, and the log holds the committed changes in
order, each from what the one before it left. -/
theorem settings_run (isIP : JsString → Nat) {store : BrandedId → OrgRows}
    (stored : ∀ orgId, Stored (store orgId)) (events : List (Event BrandedId PatchRequest))
    {orgId : BrandedId} {org : OrganizationRow}
    (present : (store orgId).organization = some org) :
    ∃ row logged, Patched orgId org (store orgId).auditLog
      (System.committedOn (patchOrgSettings isIP) orgId (System.idle store) events)
      (((System.idle store).run (patchOrgSettings isIP) events).store orgId) row logged :=
  patched_of_runs (System.run_runs (System.held_idle store) events orgId) (stored orgId) present

end Requests

private theorem acme_isUuid : isUuid (js "8d1f0c52-64b7-4c0e-9a3d-5b7e21f4c690") = true := by
  decide +kernel

private theorem grace_isUuid : isUuid (js "b46a9e07-1c25-4f83-8e6b-0d92c7a13f58") = true := by
  decide +kernel

/-- An organisation. -/
def acme : BrandedId := ⟨js "8d1f0c52-64b7-4c0e-9a3d-5b7e21f4c690", acme_isUuid⟩

/-- Its row, with a key of a feature this build does not know. -/
def acmeRow : OrganizationRow :=
  ⟨js "Acme Ltd", js "acme", .object [(js "locale", .string (js "en-GB"))]⟩

def acmeRows (orgId : BrandedId) : OrgRows := ⟨if orgId = acme then some acmeRow else none, []⟩

theorem acmeRows_stored (orgId : BrandedId) : Stored (acmeRows orgId) := by
  intro org isOrg
  unfold acmeRows at isOrg
  simp only at isOrg
  split at isOrg
  · cases isOrg
    exact ⟨by decide, by decide⟩
  · cases isOrg

/-- A patch an administrator sends. -/
def acmePatch (section_ field : String) (value : Value) : PatchRequest where
  userId := ⟨js "b46a9e07-1c25-4f83-8e6b-0d92c7a13f58", grace_isUuid⟩
  body := .object [(js section_, .object [(js field, value)])]
  clientAddress := none
  atMillis := 1789552800000
  answeredMillis := 1789552800000

/-- Two administrators at once: the second waits for the row until the first commits. -/
private def twoPatches : List (Event BrandedId PatchRequest) :=
  let name := acmePatch "branding" "display_name" (.string (js "Acme"))
  let webcam := acmePatch "proctoring_defaults" "require_webcam" (.bool true)
  [.start 0 acme name, .advance 0, .start 1 acme webcam, .advance 0, .advance 0, .advance 0,
    .start 1 acme webcam, .advance 1, .advance 1, .advance 1, .advance 1]

/-- Both changes are committed, and neither is lost. -/
theorem settings_run_example :
    (System.committedOn (patchOrgSettings fun _ => 0) acme (System.idle acmeRows)
        twoPatches).length = 2 ∧
      ∃ row logged, Patched acme acmeRow []
        (System.committedOn (patchOrgSettings fun _ => 0) acme (System.idle acmeRows) twoPatches)
        (((System.idle acmeRows).run (patchOrgSettings fun _ => 0) twoPatches).store acme)
        row logged :=
  ⟨by decide +kernel, settings_run (fun _ => 0) acmeRows_stored twoPatches rfl⟩

end Assaybank.Org
