import Assaybank.Contracts.Question
import Assaybank.Library.Document

/-!
Owns the settings of an organisation (`packages/contracts/src/org-settings.ts`): the document, what
a patch may name, the projection of what is stored, and the merge.

Contract: the projection is total and servable, and reads named members alone; merging keeps a
document servable, and a field is what the last patch that names it says.

It does not own the row the document is stored in, nor who may patch it.
-/

namespace Assaybank.Contracts

open Assaybank.Runtime Assaybank.Library

def MAX_BRANDING_NAME_LENGTH : Nat := 120

def MAX_LOGO_URL_LENGTH : Nat := 2048

/-- `/^#[0-9a-f]{6}$/u`. -/
def HEX_COLOUR (s : JsString) : Bool :=
  s.head? == some (unit '#') && s.tail.length == 6 &&
    s.tail.all fun c => isDigit c || (unit 'a' ≤ c && c ≤ unit 'f')

/-- `/^https:\/\/[^\s<>"'\\]+$/u`. -/
def HTTPS_URL (s : JsString) : Bool :=
  (js "https://").isPrefixOf s && decide ((js "https://").length < s.length) &&
    (s.drop (js "https://").length).all fun c => !isSpace c && !(js "<>\"'\\").contains c

/-- `/\S/u`. -/
def VISIBLE_TEXT (s : JsString) : Bool := s.any fun c => !isSpace c

/-! ### The document -/

/-- How an organisation presents itself to its candidates; `none` is not set. -/
structure OrgBranding where
  displayName : Option JsString
  primaryColour : Option JsString
  logoUrl : Option JsString
deriving DecidableEq

structure OrgProctoringDefaults where
  requireWebcam : Bool
  requireScreenRecording : Bool
  requireIdCheck : Bool
deriving DecidableEq

structure OrgSettings where
  branding : OrgBranding
  proctoringDefaults : OrgProctoringDefaults
deriving DecidableEq

private theorem string_notNull (checks : List (Check JsString)) :
    ∀ a, (Schema.string checks).encode a ≠ .null := by
  intro _ isNull
  cases isNull

def DisplayNameSchema : Schema (Option JsString) :=
  .nullable
    (.string [minLength 1, maxLength MAX_BRANDING_NAME_LENGTH,
      ⟨VISIBLE_TEXT,
        .invalidFormat (js "A display name must contain at least one visible character.")⟩])
    (string_notNull _)

def PrimaryColourSchema : Schema (Option JsString) :=
  .nullable
    (.string [⟨HEX_COLOUR,
      .invalidFormat (js "A colour is six lower-case hexadecimal digits, e.g. #1f6feb.")⟩])
    (string_notNull _)

def LogoUrlSchema : Schema (Option JsString) :=
  .nullable
    (.string [maxLength MAX_LOGO_URL_LENGTH,
      ⟨HTTPS_URL, .invalidFormat (js "A logo URL must be an https URL.")⟩])
    (string_notNull _)

def OrgBrandingSchema : Schema OrgBranding :=
  .looseObject
    (.both (.field (js "display_name") DisplayNameSchema)
      (.both (.field (js "primary_colour") PrimaryColourSchema)
        (.field (js "logo_url") LogoUrlSchema)))
    { toFun := fun (name, colour, logo) => ⟨name, colour, logo⟩
      invFun := fun b => (b.displayName, b.primaryColour, b.logoUrl)
      left_inv := fun _ => rfl
      right_inv := fun _ => rfl }

def OrgProctoringDefaultsSchema : Schema OrgProctoringDefaults :=
  .looseObject
    (.both (.field (js "require_webcam") .bool)
      (.both (.field (js "require_screen_recording") .bool)
        (.field (js "require_id_check") .bool)))
    { toFun := fun (webcam, screen, identity) => ⟨webcam, screen, identity⟩
      invFun := fun p => (p.requireWebcam, p.requireScreenRecording, p.requireIdCheck)
      left_inv := fun _ => rfl
      right_inv := fun _ => rfl }

def OrgSettingsSchema : Schema OrgSettings :=
  .looseObject
    (.both (.field (js "branding") OrgBrandingSchema)
      (.field (js "proctoring_defaults") OrgProctoringDefaultsSchema))
    { toFun := fun (branding, proctoring) => ⟨branding, proctoring⟩
      invFun := fun s => (s.branding, s.proctoringDefaults)
      left_inv := fun _ => rfl
      right_inv := fun _ => rfl }

/-- What an organisation that has never touched a setting has. -/
def defaultOrgSettings : OrgSettings where
  branding := ⟨none, none, none⟩
  proctoringDefaults := ⟨false, false, false⟩

/-! ### The patch -/

/-- A partial branding change; `some none` clears a field. -/
structure OrgBrandingPatch where
  displayName : Option (Option JsString)
  primaryColour : Option (Option JsString)
  logoUrl : Option (Option JsString)
deriving DecidableEq

structure OrgProctoringDefaultsPatch where
  requireWebcam : Option Bool
  requireScreenRecording : Option Bool
  requireIdCheck : Option Bool
deriving DecidableEq

structure OrgSettingsPatch where
  branding : Option OrgBrandingPatch
  proctoringDefaults : Option OrgProctoringDefaultsPatch
deriving DecidableEq

def OrgBrandingPatchSchema : Schema OrgBrandingPatch :=
  .strictObject
    (.both (.optional (js "display_name") DisplayNameSchema)
      (.both (.optional (js "primary_colour") PrimaryColourSchema)
        (.optional (js "logo_url") LogoUrlSchema)))
    { toFun := fun (name, colour, logo) => ⟨name, colour, logo⟩
      invFun := fun b => (b.displayName, b.primaryColour, b.logoUrl)
      left_inv := fun _ => rfl
      right_inv := fun _ => rfl }

def OrgProctoringDefaultsPatchSchema : Schema OrgProctoringDefaultsPatch :=
  .strictObject
    (.both (.optional (js "require_webcam") .bool)
      (.both (.optional (js "require_screen_recording") .bool)
        (.optional (js "require_id_check") .bool)))
    { toFun := fun (webcam, screen, identity) => ⟨webcam, screen, identity⟩
      invFun := fun p => (p.requireWebcam, p.requireScreenRecording, p.requireIdCheck)
      left_inv := fun _ => rfl
      right_inv := fun _ => rfl }

def OrgSettingsPatchSchema : Schema OrgSettingsPatch :=
  (Schema.strictObject
    (.both (.optional (js "branding") OrgBrandingPatchSchema)
      (.optional (js "proctoring_defaults") OrgProctoringDefaultsPatchSchema))
    { toFun := fun (branding, proctoring) => OrgSettingsPatch.mk branding proctoring
      invFun := fun p => (p.branding, p.proctoringDefaults)
      left_inv := fun _ => rfl
      right_inv := fun _ => rfl }).refine fun patch =>
    if patch.branding.isSome || patch.proctoringDefaults.isSome then []
    else [⟨[], .custom (js "Name at least one settings section to change.")⟩]

/-! ### Projection and merge -/

/-- The stored document as this build understands it. -/
def projectOrgSettings (stored : Value) : OrgSettings where
  branding :=
    sectionOf OrgBrandingSchema (member? (recordMembers stored) (js "branding"))
      defaultOrgSettings.branding
  proctoringDefaults :=
    sectionOf OrgProctoringDefaultsSchema
      (member? (recordMembers stored) (js "proctoring_defaults"))
      defaultOrgSettings.proctoringDefaults

/-- The patched value when the patch names the field, and the current one when it does not. -/
def chosen {α : Type} (patched : Option α) (current : α) : α := patched.getD current

/-- Applies a partial change to a settings document, field by field. -/
def mergeOrgSettings (current : OrgSettings) (patch : OrgSettingsPatch) : OrgSettings where
  branding := {
    displayName := chosen (patch.branding.bind (·.displayName)) current.branding.displayName
    primaryColour := chosen (patch.branding.bind (·.primaryColour)) current.branding.primaryColour
    logoUrl := chosen (patch.branding.bind (·.logoUrl)) current.branding.logoUrl }
  proctoringDefaults := {
    requireWebcam :=
      chosen (patch.proctoringDefaults.bind (·.requireWebcam))
        current.proctoringDefaults.requireWebcam
    requireScreenRecording :=
      chosen (patch.proctoringDefaults.bind (·.requireScreenRecording))
        current.proctoringDefaults.requireScreenRecording
    requireIdCheck :=
      chosen (patch.proctoringDefaults.bind (·.requireIdCheck))
        current.proctoringDefaults.requireIdCheck }

/-! ### What is accepted -/

theorem accepts_OrgBrandingSchema {branding : OrgBranding} :
    OrgBrandingSchema.Accepts branding ↔
      DisplayNameSchema.Accepts branding.displayName ∧
        PrimaryColourSchema.Accepts branding.primaryColour ∧
          LogoUrlSchema.Accepts branding.logoUrl := by
  unfold OrgBrandingSchema
  rw [accepts_looseObject, Fields.accepts_both, Fields.accepts_both, Fields.accepts_field,
    Fields.accepts_field, Fields.accepts_field]
  rfl

theorem accepts_OrgProctoringDefaultsSchema (proctoring : OrgProctoringDefaults) :
    OrgProctoringDefaultsSchema.Accepts proctoring := by
  unfold OrgProctoringDefaultsSchema
  rw [accepts_looseObject, Fields.accepts_both, Fields.accepts_both, Fields.accepts_field,
    Fields.accepts_field, Fields.accepts_field]
  exact ⟨Schema.accepts_bool _, Schema.accepts_bool _, Schema.accepts_bool _⟩

theorem accepts_OrgSettingsSchema {settings : OrgSettings} :
    OrgSettingsSchema.Accepts settings ↔ OrgBrandingSchema.Accepts settings.branding := by
  unfold OrgSettingsSchema
  rw [accepts_looseObject, Fields.accepts_both, Fields.accepts_field, Fields.accepts_field]
  exact and_iff_left (accepts_OrgProctoringDefaultsSchema _)

theorem defaultOrgSettings_accepted : OrgBrandingSchema.Accepts defaultOrgSettings.branding := by
  rw [accepts_OrgBrandingSchema]
  exact ⟨rfl, rfl, rfl⟩

/-- What an accepted patch says of the branding. -/
theorem accepts_OrgSettingsPatchSchema {patch : OrgSettingsPatch}
    (accepted : OrgSettingsPatchSchema.Accepts patch) {branding : OrgBrandingPatch}
    (named : patch.branding = some branding) :
    (∀ name, branding.displayName = some name → DisplayNameSchema.Accepts name) ∧
      (∀ colour, branding.primaryColour = some colour → PrimaryColourSchema.Accepts colour) ∧
        ∀ logo, branding.logoUrl = some logo → LogoUrlSchema.Accepts logo := by
  have sections := (Schema.accepts_refine.mp accepted).1
  rw [Schema.accepts_strictObject, Fields.accepts_both, Fields.accepts_optional] at sections
  have whole := sections.1 branding named
  unfold OrgBrandingPatchSchema at whole
  rw [Schema.accepts_strictObject, Fields.accepts_both, Fields.accepts_both,
    Fields.accepts_optional, Fields.accepts_optional, Fields.accepts_optional] at whole
  exact whole

/-! ### The projection -/

/-- What is stored under a field of a section. -/
def storedField (stored : Value) (field : JsString × JsString) : Option Value :=
  member? ((member? (recordMembers stored) field.1).elim [] recordMembers) field.2

/-- Every field the settings name. -/
def settingsFields : List (JsString × JsString) :=
  [(js "branding", js "display_name"), (js "branding", js "primary_colour"),
    (js "branding", js "logo_url"), (js "proctoring_defaults", js "require_webcam"),
    (js "proctoring_defaults", js "require_screen_recording"),
    (js "proctoring_defaults", js "require_id_check")]

/-- Whatever is stored, what is served passes the schema of the response. -/
theorem projectOrgSettings_accepted (stored : Value) :
    OrgSettingsSchema.Accepts (projectOrgSettings stored) :=
  accepts_OrgSettingsSchema.mpr (sectionOf_accepts defaultOrgSettings_accepted _)

/-- What is served depends on the fields the settings name alone, and can be served. -/
theorem projectOrgSettings_named {stored other : Value}
    (same : ∀ field ∈ settingsFields, storedField stored field = storedField other field) :
    projectOrgSettings stored = projectOrgSettings other ∧
      OrgSettingsSchema.Accepts (projectOrgSettings stored) := by
  refine ⟨?_, projectOrgSettings_accepted stored⟩
  have branding : (projectOrgSettings stored).branding = (projectOrgSettings other).branding := by
    refine sectionOf_congr fun key inside => ?_
    refine same (js "branding", key) ?_
    simp only [Fields.both, Fields.field, List.cons_append, List.nil_append, List.mem_cons,
      List.not_mem_nil, or_false] at inside
    rcases inside with rfl | rfl | rfl <;> simp [settingsFields]
  have proctoring : (projectOrgSettings stored).proctoringDefaults =
      (projectOrgSettings other).proctoringDefaults := by
    refine sectionOf_congr fun key inside => ?_
    refine same (js "proctoring_defaults", key) ?_
    simp only [Fields.both, Fields.field, List.cons_append, List.nil_append, List.mem_cons,
      List.not_mem_nil, or_false] at inside
    rcases inside with rfl | rfl | rfl <;> simp [settingsFields]
  rw [OrgSettings.mk.injEq]
  exact ⟨branding, proctoring⟩

/-- A document with a colour, beside other keys. -/
private def storedColour (colour : String) (others : List (JsString × Value)) : Value :=
  .object ((js "branding", .object [(js "primary_colour", .string (js colour))]) :: others)

/-- A key nobody named is not served, whatever stands under it. -/
theorem projectOrgSettings_named_example :
    projectOrgSettings (storedColour "#1f6feb" [(js "retention_days", .number (.ofInt 30))]) =
        projectOrgSettings (storedColour "#1f6feb" []) ∧
      OrgSettingsSchema.Accepts (projectOrgSettings
        (storedColour "#1f6feb" [(js "retention_days", .number (.ofInt 30))])) := by
  refine projectOrgSettings_named ?_
  intro field inside
  simp only [settingsFields, List.mem_cons, List.not_mem_nil, or_false] at inside
  rcases inside with rfl | rfl | rfl | rfl | rfl | rfl <;> rfl

/-- A colour that is none is served as unset. -/
example : (projectOrgSettings (storedColour "red" [])).branding = ⟨none, none, none⟩ := by
  decide

/-- Settings that were written are read back as they were. -/
theorem projectOrgSettings_written {stored : Value} {settings : OrgSettings}
    (accepted : OrgSettingsSchema.Accepts settings)
    (branding : member? (recordMembers stored) (js "branding") =
      some (OrgBrandingSchema.encode settings.branding))
    (proctoring : member? (recordMembers stored) (js "proctoring_defaults") =
      some (OrgProctoringDefaultsSchema.encode settings.proctoringDefaults)) :
    projectOrgSettings stored = settings := by
  unfold projectOrgSettings
  rw [branding, proctoring, OrgSettings.mk.injEq]
  constructor
  · refine sectionOf_encode (accepts_OrgSettingsSchema.mp accepted) fun key inside => ?_
    simp only [Fields.both, Fields.field, List.cons_append, List.nil_append, List.mem_cons,
      List.not_mem_nil, or_false] at inside
    rcases inside with rfl | rfl | rfl <;> rfl
  · refine sectionOf_encode (accepts_OrgProctoringDefaultsSchema _) fun key inside => ?_
    simp only [Fields.both, Fields.field, List.cons_append, List.nil_append, List.mem_cons,
      List.not_mem_nil, or_false] at inside
    rcases inside with rfl | rfl | rfl <;> rfl

/-! ### The merge -/

private theorem chosen_accepted {α : Type} {schema : Schema α} {patched : Option α} {current : α}
    (valid : ∀ a, patched = some a → schema.Accepts a) (before : schema.Accepts current) :
    schema.Accepts (chosen patched current) := by
  cases patched with
  | none => exact before
  | some a => exact valid a rfl

/-- Merging an accepted patch into settings that can be served gives settings that can be. -/
theorem mergeOrgSettings_accepted {current : OrgSettings} {patch : OrgSettingsPatch}
    (before : OrgSettingsSchema.Accepts current) (accepted : OrgSettingsPatchSchema.Accepts patch) :
    OrgSettingsSchema.Accepts (mergeOrgSettings current patch) := by
  rw [accepts_OrgSettingsSchema, accepts_OrgBrandingSchema] at before ⊢
  obtain ⟨name, colour, logo⟩ := before
  cases named : patch.branding with
  | none =>
      unfold mergeOrgSettings
      rw [named]
      exact ⟨name, colour, logo⟩
  | some branding =>
      obtain ⟨names, colours, logos⟩ := accepts_OrgSettingsPatchSchema accepted named
      unfold mergeOrgSettings
      rw [named]
      exact ⟨chosen_accepted names name, chosen_accepted colours colour,
        chosen_accepted logos logo⟩

/-- What the last patch that names a field says of it. -/
def lastNamed {α : Type} (initial : α) (named : OrgSettingsPatch → Option α)
    (patches : List OrgSettingsPatch) : α :=
  (patches.reverse.findSome? named).getD initial

/-- The settings a sequence of patches is to leave. -/
def settingsAfter (initial : OrgSettings) (patches : List OrgSettingsPatch) : OrgSettings where
  branding := {
    displayName :=
      lastNamed initial.branding.displayName (·.branding.bind (·.displayName)) patches
    primaryColour :=
      lastNamed initial.branding.primaryColour (·.branding.bind (·.primaryColour)) patches
    logoUrl := lastNamed initial.branding.logoUrl (·.branding.bind (·.logoUrl)) patches }
  proctoringDefaults := {
    requireWebcam :=
      lastNamed initial.proctoringDefaults.requireWebcam
        (·.proctoringDefaults.bind (·.requireWebcam)) patches
    requireScreenRecording :=
      lastNamed initial.proctoringDefaults.requireScreenRecording
        (·.proctoringDefaults.bind (·.requireScreenRecording)) patches
    requireIdCheck :=
      lastNamed initial.proctoringDefaults.requireIdCheck
        (·.proctoringDefaults.bind (·.requireIdCheck)) patches }

private theorem lastNamed_cons {α : Type} (initial : α) (named : OrgSettingsPatch → Option α)
    (patch : OrgSettingsPatch) (rest : List OrgSettingsPatch) :
    lastNamed initial named (patch :: rest) = lastNamed (chosen (named patch) initial) named rest := by
  unfold lastNamed chosen
  rw [List.reverse_cons, List.findSome?_append]
  cases rest.reverse.findSome? named with
  | some a => rfl
  | none => cases found : named patch <;> simp [found]

/-- Merging patches one after another leaves in each field what the last that names it says. -/
theorem foldl_mergeOrgSettings (initial : OrgSettings) (patches : List OrgSettingsPatch) :
    patches.foldl mergeOrgSettings initial = settingsAfter initial patches := by
  induction patches generalizing initial with
  | nil => rfl
  | cons patch rest inductionHypothesis =>
      rw [List.foldl_cons, inductionHypothesis]
      unfold settingsAfter
      simp only [lastNamed_cons]
      rfl

end Assaybank.Contracts
