import Assaybank.Library.JsonBytes
import Assaybank.Org.Settings

/-!
Owns when a settings patch is committed.

Contract: of an organisation that exists, an accepted patch is committed exactly when the strings
it leaves are ones PostgreSQL stores (`patch_commits`). In particular the audit writer refuses no
settings change: no key looks like a secret, and two documents of any accepted length are within
its budget.
-/

namespace Assaybank.Org

open Assaybank.Runtime Assaybank.Library Assaybank.Contracts Assaybank.Db

/-! ### The budget -/

private theorem length_of_accepted {text : Option JsString} {checks : List (Check JsString)}
    {notNull : ∀ a, (Schema.string checks).encode a ≠ .null} (limit : Nat)
    (limited : maxLength limit ∈ checks)
    (accepted : (Schema.nullable (.string checks) notNull).Accepts text) :
    byteBound (text.elim .null .string) ≤ 6 * limit + 4 := by
  cases text with
  | none =>
      show 4 ≤ _
      omega
  | some text =>
      have checked := Schema.accepts_nullable.mp accepted text rfl
      have short := Schema.accepts_scalar.mp checked _ limited
      have bounded : text.length ≤ limit := by simpa [maxLength] using short
      show 6 * text.length + 2 ≤ _
      omega

private theorem colour_of_accepted {colour : Option JsString}
    (accepted : PrimaryColourSchema.Accepts colour) :
    byteBound (colour.elim .null .string) ≤ 44 := by
  cases colour with
  | none => decide
  | some colour =>
      have checked := Schema.accepts_nullable.mp accepted colour rfl
      have matched : HEX_COLOUR colour = true :=
        Schema.accepts_scalar.mp checked _ List.mem_cons_self
      have length : colour.length = 7 := by
        cases colour with
        | nil => cases matched
        | cons first rest =>
            simp only [HEX_COLOUR, List.tail_cons, Bool.and_eq_true, beq_iff_eq] at matched
            rw [List.length_cons, matched.1.2]
      show 6 * colour.length + 2 ≤ _
      omega

/-- Settings that can be served take well under half of the budget. -/
theorem byteBound_settings {settings : OrgSettings}
    (accepted : OrgSettingsSchema.Accepts settings) :
    byteBound (.object (settingsSections settings)) ≤ 20000 := by
  rw [accepts_OrgSettingsSchema, accepts_OrgBrandingSchema] at accepted
  obtain ⟨name, colour, logo⟩ := accepted
  have nameBound := length_of_accepted MAX_BRANDING_NAME_LENGTH
    (List.mem_cons_of_mem _ List.mem_cons_self) name
  have colourBound := colour_of_accepted colour
  have logoBound := length_of_accepted MAX_LOGO_URL_LENGTH List.mem_cons_self logo
  have branding : byteBound (OrgBrandingSchema.encode settings.branding) =
      6 * (js "display_name").length + 3 + byteBound (settings.branding.displayName.elim .null .string)
        + 1 + (6 * (js "primary_colour").length + 3 +
          byteBound (settings.branding.primaryColour.elim .null .string) + 1 +
        (6 * (js "logo_url").length + 3 + byteBound (settings.branding.logoUrl.elim .null .string)
          + 1 + 0)) + 2 := rfl
  have proctoring : byteBound (OrgProctoringDefaultsSchema.encode settings.proctoringDefaults) =
      6 * (js "require_webcam").length + 3 + 5 + 1 +
        (6 * (js "require_screen_recording").length + 3 + 5 + 1 +
          (6 * (js "require_id_check").length + 3 + 5 + 1 + 0)) + 2 := rfl
  show 6 * (js "branding").length + 3 + byteBound (OrgBrandingSchema.encode settings.branding) + 1 +
    (6 * (js "proctoring_defaults").length + 3 +
      byteBound (OrgProctoringDefaultsSchema.encode settings.proctoringDefaults) + 1 + 0) + 2 ≤ _
  have nameKey : (js "display_name").length = 12 := rfl
  have colourKey : (js "primary_colour").length = 14 := rfl
  have logoKey : (js "logo_url").length = 8 := rfl
  have webcamKey : (js "require_webcam").length = 14 := rfl
  have screenKey : (js "require_screen_recording").length = 24 := rfl
  have identityKey : (js "require_id_check").length = 16 := rfl
  have brandingKey : (js "branding").length = 8 := rfl
  have proctoringKey : (js "proctoring_defaults").length = 19 := rfl
  unfold MAX_BRANDING_NAME_LENGTH at nameBound
  unfold MAX_LOGO_URL_LENGTH at logoBound
  omega

private theorem serialise_settings (settings : OrgSettings) :
    (utf8Bytes ((serialise (settingsSections settings)).getD [])).length ≤
      byteBound (.object (settingsSections settings)) := by
  unfold serialise
  rw [if_neg (by simp [settingsSections])]
  simp only
  split
  · simp [utf8Bytes]
  · exact length_utf8Bytes_jsonText_le _

/-! ### The entry -/

private theorem inspectEntries_cons {action : JsString} {column : PayloadColumn} {key : JsString}
    {value : Value} {rest : List (JsString × Value)} {depth : Nat}
    (free : RESERVED_PAYLOAD_KEYS.contains key = false) (kept : SECRET_KEY_PATTERN key = false)
    (inner : inspectPayload action column value (depth + 1) = .ok ())
    (others : inspectEntries action column rest depth = .ok ()) :
    inspectEntries action column ((key, value) :: rest) depth = .ok () := by
  have unreserved :
      ¬(depth = 0 ∧ column = .after ∧ RESERVED_PAYLOAD_KEYS.contains key = true) := by
    intro reserved
    rw [free] at reserved
    cases reserved.2.2
  rw [inspectEntries, if_neg unreserved, if_neg (by rw [kept]; decide), inner]
  exact others

private theorem inspectPayload_object {action : JsString} {column : PayloadColumn}
    {members : List (JsString × Value)} {depth : Nat} (shallow : depth ≤ MAX_PAYLOAD_DEPTH)
    (inner : inspectEntries action column members depth = .ok ()) :
    inspectPayload action column (.object members) depth = .ok () := by
  rw [inspectPayload, if_neg (by omega)]
  exact inner

private theorem inspectPayload_text {action : JsString} {column : PayloadColumn} {depth : Nat}
    (shallow : depth ≤ MAX_PAYLOAD_DEPTH) (text : Option JsString) :
    inspectPayload action column (text.elim .null .string) depth = .ok () := by
  rw [inspectPayload.eq_def]
  simp only
  rw [if_neg (by omega)]
  cases text with
  | none => rfl
  | some text => rfl

private theorem inspectPayload_bool {action : JsString} {column : PayloadColumn} {depth : Nat}
    (shallow : depth ≤ MAX_PAYLOAD_DEPTH) (flag : Bool) :
    inspectPayload action column (.bool flag) depth = .ok () := by
  rw [inspectPayload.eq_def]
  simp only
  rw [if_neg (by omega)]

/-- The writer finds nothing to refuse in settings, on either side. -/
theorem inspectColumn_settings (action : JsString) (column : PayloadColumn)
    (settings : OrgSettings) :
    inspectColumn action column (some (settingsPayload settings)) = .ok () := by
  have branding : inspectPayload action column (OrgBrandingSchema.encode settings.branding) 1 =
      .ok () := by
    refine inspectPayload_object (by decide) ?_
    refine inspectEntries_cons (by decide) (by decide) (inspectPayload_text (by decide) _) ?_
    refine inspectEntries_cons (by decide) (by decide) (inspectPayload_text (by decide) _) ?_
    exact inspectEntries_cons (by decide) (by decide) (inspectPayload_text (by decide) _) rfl
  have proctoring : inspectPayload action column
      (OrgProctoringDefaultsSchema.encode settings.proctoringDefaults) 1 = .ok () := by
    refine inspectPayload_object (by decide) ?_
    refine inspectEntries_cons (by decide) (by decide) (inspectPayload_bool (by decide) _) ?_
    refine inspectEntries_cons (by decide) (by decide) (inspectPayload_bool (by decide) _) ?_
    exact inspectEntries_cons (by decide) (by decide) (inspectPayload_bool (by decide) _) rfl
  show inspectPayload action column (.object (settingsSections settings)) 0 = .ok ()
  refine inspectPayload_object (by decide) ?_
  refine inspectEntries_cons (by decide) (by decide) branding ?_
  exact inspectEntries_cons (by decide) (by decide) proctoring rfl

section Requests

variable {isIP : JsString → Nat} {orgId : BrandedId} {request : PatchRequest}

/-- The address to record is one the writer takes, or none. -/
def AddressTaken (isIP : JsString → Nat) (request : PatchRequest) : Prop :=
  request.clientAddress.all (isAuditableAddress isIP) = true

private theorem preparedIp_taken (taken : AddressTaken isIP request) (action : JsString)
    {entry : AuditEntry} (same : entry.ip = request.clientAddress) :
    ∃ ip, preparedIp isIP action entry = .ok ip := by
  unfold AddressTaken at taken
  unfold preparedIp
  rw [same]
  cases address : request.clientAddress with
  | none => exact ⟨none, rfl⟩
  | some text =>
      rw [address] at taken
      have auditable : isAuditableAddress isIP text = true := taken
      simp only [if_pos auditable]
      split
      · exact ⟨none, rfl⟩
      · exact ⟨some text, rfl⟩

/-- The writer accepts the entry of a settings change, before and after the work. -/
private theorem prepared_settings (orgId : BrandedId) (taken : AddressTaken isIP request)
    {entry : AuditEntry}
    (described : entry = { patchEntry orgId request with
      before := entry.before, after := entry.after })
    (inspectedBefore : ∀ action, inspectColumn action .before entry.before = .ok ())
    (inspectedAfter : ∀ action, inspectColumn action .after entry.after = .ok ())
    (budget : payloadBytes (serialise (callerFields entry.before))
      (serialise (callerFields entry.after)) ≤ MAX_PAYLOAD_BYTES) :
    ∃ row, prepareAuditEntry isIP entry = .ok row := by
  have same : entry.ip = request.clientAddress := by
    rw [described]
    rfl
  obtain ⟨ip, address⟩ := preparedIp_taken taken ORG_SETTINGS_UPDATE_ACTION same
  have action : preparedAction entry = .ok ORG_SETTINGS_UPDATE_ACTION :=
    preparedAction_settings (by rw [described]; rfl)
  have entityType : preparedEntityType ORG_SETTINGS_UPDATE_ACTION entry = .ok (js "organization") := by
    unfold preparedEntityType
    rw [described]
    rfl
  have entityId : preparedEntityId ORG_SETTINGS_UPDATE_ACTION entry = .ok (some orgId.text) :=
    preparedEntityId_org (by rw [described]; rfl)
  have reason : preparedReason ORG_SETTINGS_UPDATE_ACTION entry = .ok none := by
    unfold preparedReason
    rw [described]
    rfl
  have actor : actorColumn entry.actor ORG_SETTINGS_UPDATE_ACTION = .ok (some request.userId) := by
    rw [described]
    rfl
  have clock : entry.atMillis = some request.atMillis := by rw [described]; rfl
  have own : ownFields none entry.actor = [] := by rw [described]; rfl
  have within : ¬payloadBytes (serialise (callerFields entry.before))
      (serialise (callerFields entry.after ++ ownFields none entry.actor)) > MAX_PAYLOAD_BYTES := by
    rw [own, List.append_nil]
    omega
  refine ⟨⟨entry.orgId, some request.userId, ORG_SETTINGS_UPDATE_ACTION, js "organization",
    some orgId.text, serialise (callerFields entry.before),
    serialise (callerFields entry.after ++ ownFields none entry.actor), ip,
    toISOString request.atMillis⟩, ?_⟩
  unfold prepareAuditEntry
  rw [action]
  show (preparedEntityType ORG_SETTINGS_UPDATE_ACTION entry >>= _) = _
  rw [entityType]
  show (preparedEntityId ORG_SETTINGS_UPDATE_ACTION entry >>= _) = _
  rw [entityId]
  show (preparedReason ORG_SETTINGS_UPDATE_ACTION entry >>= _) = _
  rw [reason]
  show (actorColumn entry.actor ORG_SETTINGS_UPDATE_ACTION >>= _) = _
  rw [actor]
  show (inspectColumn ORG_SETTINGS_UPDATE_ACTION .before entry.before >>= _) = _
  rw [inspectedBefore]
  show (inspectColumn ORG_SETTINGS_UPDATE_ACTION .after entry.after >>= _) = _
  rw [inspectedAfter]
  show (if _ then _ else _) = _
  rw [if_neg within]
  simp only [clock]
  rw [address]
  rfl

end Requests

/-! ### What is served of a stored document -/

private theorem encode_of_parse {checks : List (Check JsString)}
    {notNull : ∀ a, (Schema.string checks).encode a ≠ .null} {value : Value}
    {text : Option JsString}
    (read : (Schema.nullable (.string checks) notNull).parse value = .accepted text) :
    text.elim .null .string = value := by
  cases value with
  | null =>
      cases read
      rfl
  | string s =>
      obtain ⟨parsed, found, same⟩ := Parsed.map_eq_accepted.mp read
      have first := congrArg Parsed.value found
      cases first
      subst same
      rfl
  | _ => cases read

private theorem member_of_field {key : JsString} {schema : Schema (Option JsString)}
    {get : JsString → Option Value} {text : Option JsString}
    (read : (Fields.field key schema).parse get = .accepted text) :
    ∃ value, get key = some value ∧ schema.parse value = .accepted text := by
  unfold Fields.field at read
  simp only at read
  split at read
  · cases read
  · rename_i value found
    exact ⟨value, found, Parsed.within_eq_accepted.mp read⟩

private theorem everyString_of_member? {members : List (JsString × Value)} {name : JsString}
    {value : Value} (characters : everyMember isCharacterText members = true)
    (found : member? members name = some value) : everyString isCharacterText value = true := by
  obtain ⟨member, first, same⟩ := Option.map_eq_some_iff.mp found
  have inside := List.mem_of_find?_eq_some first
  rw [← same]
  exact (everyMember_iff.mp characters member inside).2

/-- Branding read from an object of characters has texts of characters. -/
private theorem characters_of_branding {members : List (JsString × Value)} {branding : OrgBranding}
    (characters : everyMember isCharacterText members = true)
    (read : OrgBrandingSchema.parse (.object members) = .accepted branding) :
    everyString isCharacterText (OrgBrandingSchema.encode branding) = true := by
  obtain ⟨⟨name, colour, logo⟩, parsed, same⟩ := Parsed.map_eq_accepted.mp read
  obtain ⟨readName, others⟩ := Parsed.both_eq_accepted.mp parsed
  obtain ⟨readColour, readLogo⟩ := Parsed.both_eq_accepted.mp others
  obtain ⟨nameValue, foundName, parsedName⟩ := member_of_field readName
  obtain ⟨colourValue, foundColour, parsedColour⟩ := member_of_field readColour
  obtain ⟨logoValue, foundLogo, parsedLogo⟩ := member_of_field readLogo
  have nameText := everyString_of_member? characters foundName
  have colourText := everyString_of_member? characters foundColour
  have logoText := everyString_of_member? characters foundLogo
  rw [← encode_of_parse parsedName] at nameText
  rw [← encode_of_parse parsedColour] at colourText
  rw [← encode_of_parse parsedLogo] at logoText
  subst same
  show everyMember isCharacterText [(js "display_name", name.elim .null .string),
    (js "primary_colour", colour.elim .null .string),
    (js "logo_url", logo.elim .null .string)] = true
  rw [everyMember_iff]
  intro member inside
  simp only [List.mem_cons, List.not_mem_nil, or_false] at inside
  rcases inside with rfl | rfl | rfl
  · exact ⟨(by decide : isCharacterText (js "display_name") = true), nameText⟩
  · exact ⟨(by decide : isCharacterText (js "primary_colour") = true), colourText⟩
  · exact ⟨(by decide : isCharacterText (js "logo_url") = true), logoText⟩

/-- What is served of a stored document has texts of characters. -/
theorem characters_projectOrgSettings {stored : Value} (jsonb : IsJsonb stored) :
    everyMember isCharacterText (settingsSections (projectOrgSettings stored)) = true := by
  obtain ⟨_, characters⟩ := recordMembers_jsonb jsonb
  have section_ : everyMember isCharacterText
      ((member? (recordMembers stored) (js "branding")).elim [] recordMembers) = true := by
    cases found : member? (recordMembers stored) (js "branding") with
    | none => rfl
    | some value =>
        have text := everyString_of_member? characters found
        cases value with
        | object members => exact text
        | _ => rfl
  have branding : everyString isCharacterText
      (OrgBrandingSchema.encode (projectOrgSettings stored).branding) = true := by
    show everyString isCharacterText (OrgBrandingSchema.encode (sectionOf _ _ _)) = true
    unfold sectionOf
    cases read : OrgBrandingSchema.safeParse (.object (spreadOver
        (recordMembers (OrgBrandingSchema.encode defaultOrgSettings.branding))
        ((member? (recordMembers stored) (js "branding")).elim [] recordMembers))) with
    | none => decide
    | some branding =>
        refine characters_of_branding ?_ (Schema.safeParse_eq_some.mp read)
        rw [everyMember_iff]
        intro member inside
        cases mem_spreadOver inside with
        | inl unset =>
            have defaults : everyMember isCharacterText (recordMembers
              (OrgBrandingSchema.encode defaultOrgSettings.branding)) = true := by decide
            exact everyMember_iff.mp defaults member unset
        | inr mine => exact everyMember_iff.mp section_ member mine
  rw [everyMember_iff]
  intro member inside
  simp only [settingsSections, List.mem_cons, List.not_mem_nil, or_false] at inside
  rcases inside with rfl | rfl
  · exact ⟨(by decide : isCharacterText (js "branding") = true), branding⟩
  · have flags : ∀ webcam screen identity, everyMember isCharacterText
        [(js "require_webcam", .bool webcam), (js "require_screen_recording", .bool screen),
          (js "require_id_check", .bool identity)] = true := by decide
    exact ⟨(by decide : isCharacterText (js "proctoring_defaults") = true), flags _ _ _⟩

/-! ### The commit -/

section Commit

variable {isIP : JsString → Nat} {orgId : BrandedId} {request : PatchRequest}

private theorem prepared_patchEntry (orgId : BrandedId) (taken : AddressTaken isIP request) :
    ∃ row, prepared isIP (patchEntry orgId request) = .ok row := by
  have made : ∃ row, prepareAuditEntry isIP (patchEntry orgId request) = .ok row :=
    prepared_settings orgId taken rfl (fun _ => rfl) (fun _ => rfl)
      (by decide : payloadBytes none none ≤ MAX_PAYLOAD_BYTES)
  obtain ⟨row, made⟩ := made
  exact ⟨row, by rw [prepared, made]⟩

private theorem prepared_amended (orgId : BrandedId) (taken : AddressTaken isIP request)
    {before next : OrgSettings}
    (servable : OrgSettingsSchema.Accepts before) (accepted : OrgSettingsSchema.Accepts next) :
    ∃ row, prepareAuditEntry isIP (amended (patchEntry orgId request) before next) = .ok row := by
  refine prepared_settings orgId taken rfl
    (fun action => inspectColumn_settings action .before before)
    (fun action => inspectColumn_settings action .after next) ?_
  show (utf8Bytes ((serialise (settingsSections before)).getD [])).length +
    (utf8Bytes ((serialise (settingsSections next)).getD [])).length ≤ MAX_PAYLOAD_BYTES
  have first := serialise_settings before
  have second := serialise_settings next
  have firstBound := byteBound_settings servable
  have secondBound := byteBound_settings accepted
  unfold MAX_PAYLOAD_BYTES
  omega

/-- The `INSERT` takes the row of a change whose settings are characters. -/
private theorem inserted_amended {before next : OrgSettings} {row : PreparedAuditEntry}
    (made : prepareAuditEntry isIP (amended (patchEntry orgId request) before next) = .ok row)
    (first : everyMember isCharacterText (settingsSections before) = true)
    (second : everyMember isCharacterText (settingsSections next) = true)
    (year : 1 ≤ (civilFromDays (request.atMillis / 86400000)).year ∧
      (civilFromDays (request.atMillis / 86400000)).year ≤ 9999) (rows : OrgRows) :
    ∃ after, insertAuditLog row rows = .ok (after, ()) := by
  have lawful := (prepareAuditEntry_lawful made).mpr {
    before := first
    after := second
    reason := rfl
    year := by
      intro millis clock
      cases clock
      exact year }
  unfold insertAuditLog
  rw [lawful.before, lawful.after]
  simp only [lawful.reason, lawful.time, Bool.and_self, if_true]
  exact ⟨_, rfl⟩

/-- Of an organisation that exists, an accepted patch is committed exactly when the strings it
leaves are ones PostgreSQL stores. -/
theorem patch_commits {rows : OrgRows} (stored : Stored rows) {org : OrganizationRow}
    (present : rows.organization = some org) {patch : OrgSettingsPatch}
    (parsed : patchOf request = some patch) (taken : AddressTaken isIP request)
    (year : 1 ≤ (civilFromDays (request.atMillis / 86400000)).year ∧
      (civilFromDays (request.atMillis / 86400000)).year ≤ 9999) :
    (∃ after response, (patchOrgSettings isIP orgId request).run rows = .ok (after, response)) ↔
      everyMember isCharacterText
        (settingsSections (mergeOrgSettings (projectOrgSettings org.settings) patch)) = true := by
  constructor
  · intro committed
    obtain ⟨after, response, ran⟩ := committed
    obtain ⟨other, found, _, same, read, _, characters, _⟩ := patchOrgSettings_ran stored ran
    cases parsed.symm.trans same
    cases present.symm.trans read
    exact characters
  · intro characters
    have servable := projectOrgSettings_accepted org.settings
    have accepted := mergeOrgSettings_accepted servable
      (Schema.accepts_of_parse (Schema.safeParse_eq_some.mp parsed))
    have served := assertServable_merged servable
      (Schema.accepts_of_parse (Schema.safeParse_eq_some.mp parsed))
    obtain ⟨first, madeFirst⟩ := prepared_patchEntry orgId taken
    obtain ⟨row, made⟩ := prepared_amended orgId taken servable accepted
    have makes : prepared isIP (amended (patchEntry orgId request)
        (projectOrgSettings org.settings)
        (mergeOrgSettings (projectOrgSettings org.settings) patch)) = .ok row := by
      rw [prepared, made]
    have wrote : writeOrgSettings
        ⟨orgId, org.name, org.slug, recordMembers org.settings, projectOrgSettings org.settings⟩
        (mergeOrgSettings (projectOrgSettings org.settings) patch) rows =
          .ok ({ rows with organization := some { org with
            settings := settingsDocument (recordMembers org.settings)
              (mergeOrgSettings (projectOrgSettings org.settings) patch) } }, ()) := by
      unfold writeOrgSettings
      rw [jsonbOf_settingsDocument (stored org present), if_pos characters, present]
    obtain ⟨after, inserted⟩ := inserted_amended made
      (characters_projectOrgSettings (stored org present)) characters year
      { rows with organization := some { org with
        settings := settingsDocument (recordMembers org.settings)
          (mergeOrgSettings (projectOrgSettings org.settings) patch) } }
    have body : OrgSettingsPatchSchema.safeParse request.body = some patch := parsed
    have read : readOrg orgId rows = some
        ⟨orgId, org.name, org.slug, recordMembers org.settings,
          projectOrgSettings org.settings⟩ := by
      unfold readOrg
      rw [present, Option.map_some, projectOrgSettings_members]
    refine ⟨after, toResponse
      ⟨orgId, org.name, org.slug, recordMembers org.settings, projectOrgSettings org.settings⟩
      (mergeOrgSettings (projectOrgSettings org.settings) patch) request.answeredMillis, ?_⟩
    unfold patchOrgSettings
    rw [body]
    refine Transaction.run_ofExcept_bind_ok.mpr ⟨first, madeFirst, ?_⟩
    unfold patchRow
    rw [Transaction.run_query_bind, read]
    refine Transaction.run_ofExcept_bind_ok.mpr ⟨_, served, ?_⟩
    refine Transaction.run_execute_bind_ok.mpr ⟨_, (), wrote, ?_⟩
    refine Transaction.run_ofExcept_bind_ok.mpr ⟨row, makes, ?_⟩
    exact Transaction.run_execute_bind_ok.mpr ⟨after, (), inserted, rfl⟩

end Commit

/-- A name of characters is committed. -/
theorem patch_commits_example :
    ∃ after response, (patchOrgSettings (fun _ => 0) acme
      (acmePatch "branding" "display_name" (.string (js "Acme")))).run (acmeRows acme) =
        .ok (after, response) :=
  (patch_commits (acmeRows_stored acme) (rfl : (acmeRows acme).organization = some acmeRow)
    (by decide +kernel :
      patchOf (acmePatch "branding" "display_name" (.string (js "Acme"))) =
        some ⟨some ⟨some (some (js "Acme")), none, none⟩, none⟩)
    rfl (by decide +kernel)).mpr (by decide +kernel)

end Assaybank.Org
