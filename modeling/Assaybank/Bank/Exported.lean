import Assaybank.Bank.Served
import Assaybank.Bank.Written
import Assaybank.Library.Basic

/-!
Owns what an export of a bank is: which of its items an importer's check accepts.

`Exportable` is the invariant of a question, kept by every route and by a merge of skills. What it
leaves open is `Reimportable`: an organisation's own skill may carry the key of a global one, a
question may have any number of versions, and a coding question a blank fixture.
-/

namespace Assaybank.Bank

open Assaybank.Runtime Assaybank.Library Assaybank.Contracts Assaybank.Domain Assaybank.Db
open Assaybank.Api Assaybank.Interchange Assaybank.Jobs

/-- What every question of a bank keeps. -/
structure Exportable (question : QuestionRows) : Prop where
  sound : Sound question
  contents : ∀ version ∈ question.versions, ContentFits storableText version.content
  drafts : ∀ version ∈ question.versions,
    validateKindContent question.kind (shapeOfContent version.content) .draft = []
  sourceLicense : ∀ licence, question.sourceLicense = some licence →
    TextFits storableText 1 100 licence
  externalRef : ∀ external, question.externalRef = some external →
    TextFits storableText 1 200 external
  tagCount : question.skills.length ≤ 50
  weights : ∀ tag ∈ question.skills, WeightFits tag.weight

/-! ### One request -/

section Step

variable {question : QuestionRows}

/-- What a body wrote fits, and is a draft of the kind. -/
theorem written_fits {kind : QuestionKind} {prior : Option VersionContent}
    {content : VersionContent} (written : Written kind prior content)
    (kept : ∀ earlier, prior = some earlier → ContentFits storableText earlier) :
    ContentFits storableText content ∧
      validateKindContent kind (shapeOfContent content) .draft = [] := by
  obtain ⟨body, merged, accepted, came, valid, taken, rfl⟩ := written
  have fits := fits_mergeVersionContent accepted (fun earlier here => (kept earlier here).any) came
  refine ⟨fits.stored taken, ?_⟩
  rw [shapeOfContent_storedContent]
  exact valid

private theorem fits_createQuestion {input : CreateQuestion}
    (accepted : CreateQuestionSchema.Accepts input) :
    (∀ licence, input.sourceLicense = some licence → TextFits .any 1 100 licence) ∧
      ∀ external, input.externalRef = some external → TextFits .any 1 200 external := by
  have fits := fits_any.mpr accepted
  rw [CreateQuestionSchema] at fits
  simp (disch := decide) only [fits_strictObject, fieldsFit_both, fieldsFit_field,
    fieldsFit_optional, fits_kind, SourceLicenseSchema, ExternalRefSchema, fits_between, true_and,
    Equiv.coe_fn_symm_mk] at fits
  exact fits

private theorem fits_putSkills {skills : List QuestionSkillInput}
    (accepted : PutQuestionSkillsSchema.Accepts skills) :
    (∀ skill ∈ skills, WeightFits skill.weight) ∧ skills.length ≤ 50 := by
  have fits := (fits_refine.mp (fits_any.mpr accepted)).1
  rw [fits_atMost] at fits
  refine ⟨fun skill inside => ?_, fits.2⟩
  have parts := fits.1 skill inside
  rw [QuestionSkillInputSchema] at parts
  simp (disch := decide) only [fits_strictObject, fieldsFit_both, fieldsFit_field, fits_weight,
    Equiv.coe_fn_symm_mk] at parts
  exact parts.2

/-- A version that is new, or a draft rewritten, is judged by what was written. -/
private theorem exportable_effect {request : QuestionRequest} {before after : Option QuestionRows}
    (effect : Effect request before after)
    (kept : ∀ question, before = some question → Exportable question) :
    ∀ question, after = some question → Exportable question := by
  intro result here
  have sound := sound_effect effect (fun question here => (kept question here).sound) result here
  subst here
  cases effect with
  | @created input now accepted licence external =>
      obtain ⟨licenceFits, externalFits⟩ := fits_createQuestion accepted
      exact
        { sound := sound
          contents := by intro version inside; cases inside
          drafts := by intro version inside; cases inside
          sourceLicense := stored_of_all (fun s => TextFits.stored) licenceFits licence
          externalRef := stored_of_all (fun s => TextFits.stored) externalFits external
          tagCount := Nat.zero_le _
          weights := by intro tag inside; cases inside }
  | @moved question status archivedAt legal =>
      exact { kept question rfl with sound := sound }
  | @appended question version number draft fresh written =>
      have earlier := kept question rfl
      have fits := written_fits written (by
        intro content here
        obtain ⟨latest, found, rfl⟩ := Option.map_eq_some_iff.mp here
        exact earlier.contents latest (List.argmax_mem found))
      refine { earlier with sound := sound, contents := ?_, drafts := ?_ }
      · intro other inside
        rcases List.mem_append.mp inside with old | new
        · exact earlier.contents other old
        · rw [List.mem_singleton.mp new]
          exact fits.1
      · intro other inside
        rcases List.mem_append.mp inside with old | new
        · exact earlier.drafts other old
        · rw [List.mem_singleton.mp new]
          exact fits.2
  | @edited question version versionNo content found draft written =>
      have earlier := kept question rfl
      have fits := written_fits written (by
        intro content here
        cases here
        exact earlier.contents version (mem_of_version? found).1)
      refine { earlier with sound := sound, contents := ?_, drafts := ?_ }
      · intro other inside
        rcases mem_updateDraft.mp inside with ⟨old, _⟩ | ⟨origin, _, _, rfl⟩
        · exact earlier.contents other old
        · exact fits.1
      · intro other inside
        rcases mem_updateDraft.mp inside with ⟨old, _⟩ | ⟨origin, _, _, rfl⟩
        · exact earlier.drafts other old
        · exact fits.2
  | @published question version versionNo status now asked found draft legal publishable =>
      have earlier := kept question rfl
      refine { earlier with sound := sound, contents := ?_, drafts := ?_ }
      · intro other inside
        rcases mem_updateDraft.mp inside with ⟨old, _⟩ | ⟨origin, old, _, rfl⟩
        · exact earlier.contents other old
        · exact earlier.contents origin old
      · intro other inside
        rcases mem_updateDraft.mp inside with ⟨old, _⟩ | ⟨origin, old, _, rfl⟩
        · exact earlier.drafts other old
        · exact earlier.drafts origin old
  | @tagged question skills accepted visible seen =>
      obtain ⟨weights, count⟩ := fits_putSkills accepted
      refine { kept question rfl with sound := sound, tagCount := ?_, weights := ?_ }
      · simpa using count
      · intro tag inside
        obtain ⟨skill, member, rfl⟩ := List.mem_map.mp inside
        exact (weights skill member).stored

end Step

/-! ### A merge of skills -/

section Merge

variable {sourceId targetId : SkillId} {tags : List QuestionSkill}

/-- A tag the merge adds stands for one it takes away. -/
private theorem length_mergeTags_le : (mergeTags sourceId targetId tags).length ≤ tags.length := by
  have whole := List.length_eq_length_filter_add (l := tags) fun tag => tag.skillId == sourceId
  have kept : (tags.filter fun tag => tag.skillId != sourceId) =
      tags.filter fun tag => !(tag.skillId == sourceId) := rfl
  unfold mergeTags
  rw [List.filter_append, List.length_append, kept]
  refine le_trans (Nat.add_le_add_left (List.length_filter_le _ _) _) ?_
  refine le_trans (Nat.add_le_add_left (List.length_filter_le _ _) _) ?_
  rw [List.length_map]
  omega

private theorem weight_mergeTags {tag : QuestionSkill}
    (inside : tag ∈ mergeTags sourceId targetId tags) : ∃ origin ∈ tags, tag.weight = origin.weight := by
  unfold mergeTags at inside
  rcases List.mem_append.mp (List.mem_of_mem_filter inside) with old | added
  · exact ⟨tag, old, rfl⟩
  · obtain ⟨origin, member, rfl⟩ := List.mem_map.mp (List.mem_of_mem_filter added)
    exact ⟨origin, List.mem_of_mem_filter member, rfl⟩

private theorem Exportable.merge {question : QuestionRows} (kept : Exportable question)
    (sourceId targetId : SkillId) :
    Exportable { question with skills := mergeTags sourceId targetId question.skills } where
  sound := { kept.sound with }
  contents := kept.contents
  drafts := kept.drafts
  sourceLicense := kept.sourceLicense
  externalRef := kept.externalRef
  tagCount := length_mergeTags_le.trans kept.tagCount
  weights := by
    intro tag inside
    obtain ⟨origin, member, same⟩ := weight_mergeTags inside
    rw [same]
    exact kept.weights origin member

end Merge

/-! ### Every operation -/

structure ExportableBank (bank : BankState) : Prop where
  questions : ∀ entry ∈ bank.questions, Exportable entry.2
  keys : ∀ skill ∈ bank.skills, SkillKeySchema.Accepts skill.key

section Operations

variable {bank after : BankState}

private theorem mem_of_question? {id : QuestionId} {question : QuestionRows}
    (found : bank.question? id = some question) : ∃ entry ∈ bank.questions, entry.2 = question := by
  obtain ⟨entry, here, same⟩ := Option.map_eq_some_iff.mp found
  exact ⟨entry, List.mem_of_find?_eq_some here, same⟩

private theorem mem_store {id : QuestionId} {question : QuestionRows}
    {entry : QuestionId × QuestionRows} (inside : entry ∈ (bank.store id (some question)).questions) :
    entry.2 = question ∨ entry ∈ bank.questions := by
  unfold BankState.store at inside
  simp only at inside
  split at inside
  · obtain ⟨origin, member, rfl⟩ := List.mem_map.mp inside
    split
    · exact .inl rfl
    · exact .inr member
  · rcases List.mem_append.mp inside with old | new
    · exact .inr old
    · rw [List.mem_singleton.mp new]
      exact .inl rfl

theorem createSkill_ok {body : Value} {id : SkillId}
    (created : createSkill bank body id = .ok after) :
    ∃ skill, SkillKeySchema.Accepts skill.key ∧
      after = { bank with skills := bank.skills ++ [skill] } := by
  unfold createSkill at created
  obtain ⟨input, parsed, rest⟩ := bind_eq_ok.mp created
  obtain ⟨_, checked, inserted⟩ := bind_eq_ok.mp rest
  have accepted := parseRequestPart_ok parsed
  rw [CreateSkillSchema, Schema.accepts_strictObject, Fields.accepts_both,
    Fields.accepts_field] at accepted
  split at inserted
  · cases inserted
  · split at inserted
    · cases inserted
    · cases inserted
      exact ⟨_, accepted.1, rfl⟩

theorem mergeSkills_ok {sourceId : SkillId} {body : Value}
    (merged : mergeSkills bank sourceId body = .ok after) :
    (∀ skill ∈ after.skills, ∃ origin ∈ bank.skills, skill.key = origin.key) ∧
      ∃ targetId, after.questions = bank.questions.map fun entry =>
        (entry.1, { entry.2 with skills := mergeTags sourceId targetId entry.2.skills }) := by
  unfold mergeSkills at merged
  obtain ⟨input, parsed, rest⟩ := bind_eq_ok.mp merged
  obtain ⟨_, checked, written⟩ := bind_eq_ok.mp rest
  cases written
  refine ⟨fun skill inside => ?_, input.targetId, rfl⟩
  obtain ⟨origin, member, rfl⟩ := List.mem_map.mp inside
  refine ⟨origin, List.mem_of_mem_filter member, ?_⟩
  split
  · rfl
  · rfl

/-- Every operation keeps every question exportable and every key a key. -/
private theorem exportable_apply (kept : ExportableBank bank) (operation : BankOperation) :
    ExportableBank (bank.apply operation) := by
  cases operation with
  | write id request =>
      unfold BankState.apply
      simp only
      split
      · rename_i row response ran
        have effect := handle_effect ran
        have earlier : ∀ question, bank.question? id = some question → Exportable question := by
          intro question found
          obtain ⟨entry, inside, rfl⟩ := mem_of_question? found
          exact kept.questions entry inside
        cases row with
        | none => exact kept
        | some question =>
            have now := exportable_effect effect earlier question rfl
            refine ⟨fun entry inside => ?_, kept.keys⟩
            rcases mem_store inside with rfl | old
            · exact now
            · exact kept.questions entry old
      · exact kept
  | createSkill body id =>
      unfold BankState.apply
      simp only
      cases created : createSkill bank body id with
      | error refusal => exact kept
      | ok result =>
          obtain ⟨added, accepted, rfl⟩ := createSkill_ok created
          refine ⟨kept.questions, fun skill inside => ?_⟩
          rcases List.mem_append.mp inside with old | new
          · exact kept.keys skill old
          · rw [List.mem_singleton.mp new]
            exact accepted
  | mergeSkills sourceId body =>
      unfold BankState.apply
      simp only
      cases merged : mergeSkills bank sourceId body with
      | error refusal => exact kept
      | ok result =>
          obtain ⟨keys, targetId, questions⟩ := mergeSkills_ok merged
          refine ⟨fun entry inside => ?_, fun skill inside => ?_⟩
          · simp only [Except.toOption, Option.getD_some, questions] at inside
            obtain ⟨origin, member, rfl⟩ := List.mem_map.mp inside
            exact (kept.questions origin member).merge sourceId targetId
          · obtain ⟨origin, member, same⟩ := keys skill inside
            rw [same]
            exact kept.keys origin member

/-- The keys the seed writes are keys. -/
private theorem accepts_seedKeys : ∀ seed ∈ SEED_SKILLS,
    ((1 ≤ (js seed.key).length ∧ (js seed.key).length ≤ 120) ∧ isSkillKey (js seed.key) = true) ∧
      ∀ child ∈ seed.children, (1 ≤ (js child.1).length ∧ (js child.1).length ≤ 120) ∧
        isSkillKey (js child.1) = true := by
  decide +kernel

private theorem exportable_seeded (mint : JsString → SkillId) : ExportableBank (seededBank mint) where
  questions := by intro entry inside; cases inside
  keys := by
    intro skill inside
    obtain ⟨seed, member, among⟩ := List.mem_flatMap.mp inside
    obtain ⟨parent, children⟩ := accepts_seedKeys seed member
    rcases List.mem_cons.mp among with rfl | below
    · exact skillKeySchema_accepts.mpr parent
    · obtain ⟨child, within, rfl⟩ := List.mem_map.mp below
      exact skillKeySchema_accepts.mpr (children child within)

/-- Every bank an organisation can come to is exportable. -/
theorem exportable_run (mint : JsString → SkillId) (operations : List BankOperation) :
    ExportableBank (operations.foldl BankState.apply (seededBank mint)) := by
  suffices ∀ bank, ExportableBank bank → ExportableBank (operations.foldl BankState.apply bank) from
    this _ (exportable_seeded mint)
  induction operations with
  | nil => exact fun bank kept => kept
  | cons operation rest inductionHypothesis =>
      intro bank kept
      exact inductionHypothesis _ (exportable_apply kept operation)

end Operations

/-! ### The export -/

/-- The longest ref is of 200 units, two of them the `q-`. -/
private theorem accepts_positionalRef (index : Nat) :
    RefSchema.Accepts (positionalRef index) ↔ index + 1 < 10 ^ 198 := by
  have positive := length_natText_pos (index + 1)
  have length : (positionalRef index).length = 2 + max 5 (natText (index + 1)).length := by
    unfold positionalRef padStart
    rw [List.length_append, List.length_append, List.length_replicate]
    show 2 + _ = _
    omega
  have digits : ∀ c ∈ padStart 5 (unit '0') (natText (index + 1)), isRefUnit c = true := by
    intro c inside
    unfold padStart at inside
    rcases List.mem_append.mp inside with fill | digit
    · rw [List.eq_of_mem_replicate fill]
      decide
    · simp [isRefUnit, isDigit_natText digit]
  have valid : isRef (positionalRef index) = true := by
    unfold isRef
    rw [Bool.and_eq_true]
    refine ⟨rfl, List.all_eq_true.mpr fun c inside => ?_⟩
    rcases List.mem_append.mp inside with start | rest
    · exact List.all_eq_true.mp (by decide : (js "q-").all isRefUnit = true) c start
    · exact digits c rest
  have bound : (natText (index + 1)).length ≤ 198 ↔ index + 1 < 10 ^ 198 :=
    length_natText_le_iff (Nat.succ_ne_zero index)
  rw [refSchema_accepts, length, and_iff_left valid, ← bound]
  omega

/-- What the invariant leaves open. -/
structure Reimportable (bank : BankState) (question : QuestionRows) : Prop where
  tags : (question.skills.filterMap fun tag => keyById bank tag.skillId).Nodup
  versions : question.versions.length ≤ MAX_BANK_VERSIONS
  fixtures : question.kind = .coding → ∀ version ∈ question.versions,
    ¬ HasBlankFixture version.content

section Export

variable {bank : BankState} {question : QuestionRows}

private theorem perm_exportedSkills (keys : SkillId → Option JsString) :
    (exportedSkills keys question).Perm
      (question.skills.flatMap fun tag => (keys tag.skillId).elim [] fun key => [⟨key, tag.weight⟩]) :=
  (List.perm_insertionSort _ _).trans ((List.perm_insertionSort _ _).flatMap_right _)

private theorem keys_exportedSkills (question : QuestionRows) (keys : SkillId → Option JsString) :
    ((exportedSkills keys question).map BankSkill.key).Perm
      (question.skills.filterMap fun tag => keys tag.skillId) := by
  refine ((perm_exportedSkills keys).map _).trans (List.Perm.of_eq ?_)
  induction question.skills with
  | nil => rfl
  | cons tag rest inductionHypothesis =>
      rw [List.flatMap_cons, List.map_append, inductionHypothesis, List.filterMap_cons]
      cases keys tag.skillId with
      | none => rfl
      | some key => rfl

private theorem exportable_tags (kept : ExportableBank bank) (fits : Exportable question) :
    (∀ skill ∈ exportedSkills (keyById bank) question, SkillFits skill) ∧
      (exportedSkills (keyById bank) question).length ≤ 50 := by
  constructor
  · intro skill inside
    obtain ⟨tag, member, among⟩ := List.mem_flatMap.mp ((perm_exportedSkills _).mem_iff.mp inside)
    cases found : keyById bank tag.skillId with
    | none => simp [found] at among
    | some key =>
        rw [found, Option.elim_some, List.mem_singleton] at among
        subst among
        obtain ⟨row, here, rfl⟩ := Option.map_eq_some_iff.mp found
        exact ⟨kept.keys row (List.mem_of_find?_eq_some here), fits.weights tag member⟩
  · have count := (keys_exportedSkills question (keyById bank)).length_eq
    rw [List.length_map] at count
    rw [count]
    exact (List.length_filterMap_le _ _).trans fits.tagCount

private theorem stageOf_toBankVersion (version : VersionRow) :
    stageOf (toBankVersion version) = if version.isPublished then .publish else .draft := rfl

/-- The API has held each version to the bar its export is held to. -/
private theorem valid_at_stage (fits : Exportable question) {version : VersionRow}
    (inside : version ∈ question.versions) :
    validateKindContent question.kind (shapeOfContent version.content)
      (stageOf (toBankVersion version)) = [] := by
  rw [stageOf_toBankVersion]
  split
  · rename_i published
    exact fits.sound.publishable version inside published
  · exact fits.drafts version inside

private theorem isServed_iff {status : QuestionStatus} :
    isServed status = true ↔ status = .published ∨ status = .retired := by
  simp [isServed]

private theorem exported_status (fits : Exportable question) :
    isServed question.status = (question.versions.map toBankVersion).any BankVersion.published := by
  rw [Bool.eq_iff_iff, isServed_iff, fits.sound.circulates, List.any_map, List.any_eq_true]
  rfl

private theorem exported_numbers (fits : Exportable question)
    (few : question.versions.length ≤ MAX_BANK_VERSIONS) {version : VersionRow}
    (inside : version ∈ question.versions) :
    1 ≤ (toBankVersion version).versionNo ∧ (toBankVersion version).versionNo ≤ MAX_SAFE_INTEGER := by
  have number : version.versionNo ∈ List.range' 1 question.versions.length := by
    rw [← fits.sound.numbered]
    exact List.mem_map_of_mem inside
  rw [List.mem_range'_1] at number
  simp only [toBankVersion, MAX_SAFE_INTEGER]
  unfold MAX_BANK_VERSIONS at few
  omega

private theorem exported_ascending (fits : Exportable question) :
    ((question.versions.map toBankVersion).map BankVersion.versionNo).Pairwise (· < ·) := by
  have ascend : (question.versions.map VersionRow.versionNo).Pairwise (· < ·) := by
    rw [fits.sound.numbered]
    exact List.pairwise_lt_range'
  rw [List.pairwise_map, List.pairwise_map]
  exact (List.pairwise_map.mp ascend).imp Int.ofNat_lt.mpr

/-- An exportable question with a version is exported as an item the check accepts exactly when
what the invariant leaves open holds of it. -/
theorem exportedItem_accepted_iff (kept : ExportableBank bank) (fits : Exportable question)
    (some : question.versions ≠ []) (index : Nat) :
    Accepted (exportedItem (positionalRef index) (keyById bank) question) ↔
      Reimportable bank question ∧ index + 1 < 10 ^ 198 := by
  have versions : (exportedItem (positionalRef index) (keyById bank) question).versions =
      question.versions.map toBankVersion := allVersions_of_sound fits.sound
  have distinct := (keys_exportedSkills question (keyById bank)).nodup_iff
  rw [accepted_iff_fits, ← accepts_positionalRef]
  constructor
  · intro item
    refine ⟨⟨distinct.mp item.distinct, ?_, ?_⟩, item.ref⟩
    · have count := item.versionCount.2
      rwa [versions, List.length_map] at count
    · intro coding version inside blank
      have kind := item.kinds (toBankVersion version) (by
        rw [versions]
        exact List.mem_map_of_mem inside)
      exact (exported_valid_iff (valid_at_stage fits inside)).mp kind ⟨coding, blank⟩
  · rintro ⟨rest, ref⟩
    have few := rest.versions
    exact
      { ref := ref
        sourceLicense := fits.sourceLicense
        externalRef := fits.externalRef
        skills := (exportable_tags kept fits).1
        skillCount := (exportable_tags kept fits).2
        distinct := distinct.mpr rest.tags
        versions := by
          rw [versions, List.forall_mem_map]
          exact fun version inside => fits_toBankVersion.mpr (fits.contents version inside)
        numbers := by
          rw [versions, List.forall_mem_map]
          exact fun version inside => exported_numbers fits few inside
        versionCount := by
          rw [versions, List.length_map]
          exact ⟨List.length_pos_iff.mpr some, few⟩
        ascending := by
          rw [versions]
          exact exported_ascending fits
        status := by
          rw [versions]
          exact exported_status fits
        kinds := by
          rw [versions, List.forall_mem_map]
          intro version inside
          exact (exported_valid_iff (valid_at_stage fits inside)).mpr fun both =>
            rest.fixtures both.1 version inside both.2 }

private theorem mem_listQuestions {filter : ExportFilter} {entry : QuestionId × QuestionRows}
    {index : Nat} (inside : (entry, index) ∈ (listQuestions bank filter).zipIdx) :
    entry ∈ bank.questions :=
  List.mem_of_mem_filter ((List.perm_insertionSort _ _).mem_iff.mp
    (List.fst_mem_of_mem_zipIdx inside))

end Export

/-- An identifier for each seeded key, by its position in the seed. -/
def seedMint (key : JsString) : SkillId :=
  let keys := SEED_SKILLS.flatMap fun seed => js seed.key :: seed.children.map fun child => js child.1
  js "00000000-0000-4000-8000-" ++ padStart 12 (unit '0') (natText (keys.idxOf key))

/-- A skill of the organisation under the key of a global one, and a question tagged with both. -/
def taggedTwice : List BankOperation :=
  let question := js "0b54b4fc-0000-4000-8000-000000000001"
  let own := js "0b54b4fc-0000-4000-8000-000000000002"
  let tag (id : SkillId) : Value := .object [(js "skill_id", .string id), (js "weight", .number 1)]
  [ .createSkill (.object [(js "key", .string (js "sql")), (js "name", .string (js "Our SQL"))]) own,
    .write question (.postQuestion (.object [(js "kind", .string (js "subjective"))]) 0),
    .write question (.postVersion (versionBody "Explain a join.")
      (js "0b54b4fc-0000-4000-8000-000000000003") 1),
    .write question (.putSkills (.array [tag (seedMint (js "sql")), tag own]) []) ]

end Assaybank.Bank
