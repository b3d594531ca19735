import Assaybank.Bank.Effect
import Mathlib.Data.List.Nodup

/-!
Owns the invariant of the question bank and its history, over every interleaving of the writing
routes.

`Sound` ties a question's status, its versions and its current pointer; `Grows` is what a later
state may not take back. Both are derived from `Effect`, one case each.
-/

namespace Assaybank.Bank

open Assaybank.Runtime Assaybank.Library Assaybank.Contracts Assaybank.Domain Assaybank.Db
open Assaybank.Api

/-- Some version of the question is published. -/
def AnyPublished (question : QuestionRows) : Prop :=
  ∃ version ∈ question.versions, version.isPublished = true

/-- The current pointer names a published version of the question. -/
def PointsAtPublished (question : QuestionRows) : Prop :=
  ∃ version ∈ question.versions,
    question.currentVersionId = some version.id ∧ version.isPublished = true

structure Sound (question : QuestionRows) : Prop where
  numbered :
    question.versions.map VersionRow.versionNo = List.range' 1 question.versions.length
  distinct : (question.versions.map VersionRow.id).Nodup
  circulates : question.status = .published ∨ question.status = .retired ↔ AnyPublished question
  pointed : AnyPublished question ↔ PointsAtPublished question
  pointer : question.currentVersionId.isSome = true → PointsAtPublished question
  publishable : ∀ version ∈ question.versions, version.isPublished = true →
    validateKindContent question.kind (shapeOfContent version.content) .publish = []

/-- What no later state takes back: a published version, as it stands, and retirement. -/
structure Grows (question later : QuestionRows) : Prop where
  kind : later.kind = question.kind
  frozen : ∀ version ∈ question.versions, version.isPublished = true → version ∈ later.versions
  retired : question.status = .retired → later.status = .retired

/-- A version published by a step was a draft that the kind rule admits for publication. -/
def PublishesSoundly (before after : Option QuestionRows) : Prop :=
  ∀ question, after = some question → ∀ version ∈ question.versions, version.isPublished = true →
    ∃ earlier, before = some earlier ∧ (version ∈ earlier.versions ∨
      ∃ draft ∈ earlier.versions, draft.publishedAt = none ∧
        version = { draft with publishedAt := version.publishedAt } ∧
        validateKindContent earlier.kind (shapeOfContent draft.content) .publish = [])

/-! ### Versions under an update of a draft -/

section Draft

variable {question : QuestionRows} {versionNo : Nat} {write : VersionRow → VersionRow}

private theorem map_updateDraft {α : Type} (f : VersionRow → α) (kept : ∀ v, f (write v) = f v) :
    (updateDraft versionNo write question).1.versions.map f = question.versions.map f := by
  simp only [updateDraft, List.map_map]
  apply List.map_congr_left
  intro version _
  simp only [Function.comp_apply]
  split
  · exact kept version
  · rfl

private theorem length_updateDraft :
    (updateDraft versionNo write question).1.versions.length = question.versions.length := by
  simp [updateDraft]

theorem mem_updateDraft {version : VersionRow} :
    version ∈ (updateDraft versionNo write question).1.versions ↔
      (version ∈ question.versions ∧ isDraftNumbered versionNo version = false) ∨
        ∃ draft ∈ question.versions, isDraftNumbered versionNo draft = true ∧
          version = write draft := by
  simp only [updateDraft, List.mem_map]
  constructor
  · rintro ⟨origin, inside, rfl⟩
    by_cases draft : isDraftNumbered versionNo origin = true
    · exact .inr ⟨origin, inside, draft, by rw [if_pos draft]⟩
    · rw [if_neg draft]
      exact .inl ⟨inside, by simpa using draft⟩
  · rintro (⟨inside, other⟩ | ⟨draft, inside, numbered, rfl⟩)
    · exact ⟨version, inside, by simp [other]⟩
    · exact ⟨draft, inside, by rw [if_pos numbered]⟩

private theorem not_draft_of_published {version : VersionRow}
    (published : version.isPublished = true) : isDraftNumbered versionNo version = false := by
  simp [isDraftNumbered, published]

theorem draft_of_numbered {version : VersionRow}
    (draft : isDraftNumbered versionNo version = true) :
    version.versionNo = versionNo ∧ version.publishedAt = none := by
  simpa [isDraftNumbered, VersionRow.isPublished] using draft

/-- A published version is the same row after an update of a draft. -/
theorem published_updateDraft {version : VersionRow} (inside : version ∈ question.versions)
    (published : version.isPublished = true) :
    version ∈ (updateDraft versionNo write question).1.versions :=
  mem_updateDraft.mpr (.inl ⟨inside, not_draft_of_published published⟩)

end Draft

/-! ### Numbers -/

section Numbers

variable {question : QuestionRows}

theorem highestVersionNo_of_numbered
    (numbered : question.versions.map VersionRow.versionNo =
      List.range' 1 question.versions.length) :
    question.highestVersionNo = question.versions.length := by
  unfold QuestionRows.highestVersionNo QuestionRows.latestVersion
  cases latest : question.versions.argmax VersionRow.versionNo with
  | none =>
      rw [List.argmax_eq_none] at latest
      simp [latest]
  | some version =>
      simp only [Option.elim_some]
      have inside := List.argmax_mem latest
      have bounds : version.versionNo ∈ List.range' 1 question.versions.length := by
        rw [← numbered]
        exact List.mem_map_of_mem inside
      rw [List.mem_range'_1] at bounds
      have positive : 0 < question.versions.length := List.length_pos_of_mem inside
      have last : question.versions.length ∈ question.versions.map VersionRow.versionNo := by
        rw [numbered, List.mem_range'_1]
        omega
      obtain ⟨final, within, number⟩ := List.mem_map.mp last
      have above := List.le_of_mem_argmax within latest
      omega

/-- Two versions of one number are one version. -/
theorem Sound.unique (sound : Sound question) {left right : VersionRow}
    (first : left ∈ question.versions) (second : right ∈ question.versions)
    (same : left.versionNo = right.versionNo) : left = right := by
  have distinct : (question.versions.map VersionRow.versionNo).Nodup := by
    rw [sound.numbered]
    exact List.nodup_range'
  exact List.inj_on_of_nodup_map distinct first second same

/-- The current pointer names a version of the question, and a published one. -/
theorem Sound.named (sound : Sound question) {id : VersionId}
    (pointer : question.currentVersionId = some id) :
    ∃ version ∈ question.versions, version.id = id ∧ version.isPublished = true := by
  obtain ⟨version, inside, same, published⟩ := sound.pointer (by rw [pointer]; rfl)
  exact ⟨version, inside, Option.some.inj (same.symm.trans pointer), published⟩

/-- Two versions of one identifier are one version. -/
theorem Sound.identified (sound : Sound question) {left right : VersionRow}
    (first : left ∈ question.versions) (second : right ∈ question.versions)
    (same : left.id = right.id) : left = right :=
  List.inj_on_of_nodup_map sound.distinct first second same

theorem mem_of_version? {versionNo : Nat} {version : VersionRow}
    (found : question.version? versionNo = some version) :
    version ∈ question.versions ∧ version.versionNo = versionNo :=
  ⟨List.mem_of_find?_eq_some found, by simpa using List.find?_some found⟩

/-- The draft an update of a number writes is the version of that number. -/
theorem Sound.draft_eq (sound : Sound question) {versionNo : Nat} {version draft : VersionRow}
    (found : question.version? versionNo = some version) (inside : draft ∈ question.versions)
    (numbered : isDraftNumbered versionNo draft = true) : draft = version := by
  obtain ⟨here, number⟩ := mem_of_version? found
  exact sound.unique inside here ((draft_of_numbered numbered).1.trans number.symm)

end Numbers

/-! ### One step -/

section Step

variable {question : QuestionRows}

theorem publish_published {source target : QuestionStatus}
    (moved : transitionQuestion source .publish = .ok target) :
    target = .published ∧ source ≠ .retired := by
  cases source <;> cases moved <;> exact ⟨rfl, by decide⟩

/-- A move other than publication neither enters circulation nor leaves it. -/
private theorem legal_circulates {source target : QuestionStatus}
    (legal : target = source ∨
      ∃ event, event ≠ .publish ∧ transitionQuestion source event = .ok target) :
    (target = .published ∨ target = .retired ↔ source = .published ∨ source = .retired) ∧
      (source = .retired → target = .retired) := by
  rcases legal with rfl | ⟨event, other, moved⟩
  · exact ⟨Iff.rfl, id⟩
  · cases event <;> cases source <;> cases moved <;> simp_all

private theorem sound_new (input : CreateQuestion) (now : Instant) :
    Sound (newQuestion input now) where
  numbered := rfl
  distinct := List.nodup_nil
  circulates := by simp [newQuestion, AnyPublished]
  pointed := by simp [newQuestion, AnyPublished, PointsAtPublished]
  pointer := by simp [newQuestion]
  publishable := by simp [newQuestion]

private theorem sound_append (sound : Sound question) {version : VersionRow}
    (number : version.versionNo = question.highestVersionNo + 1)
    (draft : version.publishedAt = none)
    (fresh : ∀ other ∈ question.versions, other.id ≠ version.id) :
    Sound { question with versions := question.versions ++ [version] } := by
  have unpublished : version.isPublished = false := by simp [VersionRow.isPublished, draft]
  have anyPublished :
      AnyPublished { question with versions := question.versions ++ [version] } ↔
        AnyPublished question := by
    simp [AnyPublished, or_and_right, exists_or, unpublished]
  have points :
      PointsAtPublished { question with versions := question.versions ++ [version] } ↔
        PointsAtPublished question := by
    simp [PointsAtPublished, or_and_right, exists_or, unpublished]
  refine ⟨?_, ?_, ?_, ?_, ?_, ?_⟩
  · simp only [List.map_append, List.map_cons, List.map_nil, List.length_append, List.length_cons,
      List.length_nil, zero_add]
    rw [sound.numbered, number, highestVersionNo_of_numbered sound.numbered, List.range'_concat,
      Nat.one_mul, Nat.add_comm 1]
  · rw [List.map_append, List.map_cons, List.map_nil]
    apply sound.distinct.append (List.nodup_singleton _)
    rw [List.disjoint_singleton]
    intro taken
    obtain ⟨other, inside, same⟩ := List.mem_map.mp taken
    exact fresh other inside same
  · rw [anyPublished]
    exact sound.circulates
  · rw [anyPublished, points]
    exact sound.pointed
  · rw [points]
    exact sound.pointer
  · intro other inside published
    rcases List.mem_append.mp inside with earlier | last
    · exact sound.publishable other earlier published
    · rw [List.mem_singleton.mp last, unpublished] at published
      cases published

private theorem sound_edit (sound : Sound question) (versionNo : Nat) (content : VersionContent) :
    Sound (updateDraft versionNo (fun other => { other with content := content }) question).1 := by
  generalize edited : updateDraft versionNo (fun other => { other with content := content })
    question = after
  have published {version : VersionRow} (shown : version.isPublished = true) :
      version ∈ after.1.versions ↔ version ∈ question.versions := by
    subst edited
    rw [mem_updateDraft]
    constructor
    · rintro (⟨inside, _⟩ | ⟨draft, _, numbered, rfl⟩)
      · exact inside
      · simp [VersionRow.isPublished, (draft_of_numbered numbered).2] at shown
    · exact fun inside => .inl ⟨inside, not_draft_of_published shown⟩
  have anyPublished : AnyPublished after.1 ↔ AnyPublished question := by
    unfold AnyPublished
    constructor
    · rintro ⟨version, inside, shown⟩
      exact ⟨version, (published shown).mp inside, shown⟩
    · rintro ⟨version, inside, shown⟩
      exact ⟨version, (published shown).mpr inside, shown⟩
  have pointer : after.1.currentVersionId = question.currentVersionId := by rw [← edited]; rfl
  have points : PointsAtPublished after.1 ↔ PointsAtPublished question := by
    unfold PointsAtPublished
    rw [pointer]
    constructor
    · rintro ⟨version, inside, named, shown⟩
      exact ⟨version, (published shown).mp inside, named, shown⟩
    · rintro ⟨version, inside, named, shown⟩
      exact ⟨version, (published shown).mpr inside, named, shown⟩
  refine ⟨?_, ?_, ?_, ?_, ?_, ?_⟩
  · rw [← edited, map_updateDraft VersionRow.versionNo (by intro; rfl), length_updateDraft]
    exact sound.numbered
  · rw [← edited, map_updateDraft VersionRow.id (by intro; rfl)]
    exact sound.distinct
  · rw [anyPublished, ← sound.circulates, ← edited]
    rfl
  · rw [anyPublished, points]
    exact sound.pointed
  · rw [pointer, points]
    exact sound.pointer
  · intro version inside shown
    have kind : after.1.kind = question.kind := by rw [← edited]; rfl
    rw [kind]
    exact sound.publishable version ((published shown).mp inside) shown

private theorem sound_publish (sound : Sound question) {version : VersionRow} {versionNo : Nat}
    {status : QuestionStatus} {now : Instant}
    (found : question.version? versionNo = some version) (draft : version.publishedAt = none)
    (legal : transitionQuestion question.status .publish = .ok status)
    (publishable : validateKindContent question.kind (shapeOfContent version.content)
      .publish = []) :
    Sound
      { (updateDraft versionNo (fun other => { other with publishedAt := some now })
          question).1 with
        currentVersionId := some version.id
        status := status } := by
  obtain ⟨inside, number⟩ := mem_of_version? found
  have here : { version with publishedAt := some now } ∈
      (updateDraft versionNo (fun other => { other with publishedAt := some now })
        question).1.versions := by
    refine mem_updateDraft.mpr (.inr ⟨version, inside, ?_, rfl⟩)
    simp [isDraftNumbered, VersionRow.isPublished, draft, number]
  obtain ⟨rfl, _⟩ := publish_published legal
  have points : PointsAtPublished
      { (updateDraft versionNo (fun other => { other with publishedAt := some now })
          question).1 with
        currentVersionId := some version.id
        status := .published } :=
    ⟨_, here, rfl, rfl⟩
  have anyPublished : AnyPublished
      { (updateDraft versionNo (fun other => { other with publishedAt := some now })
          question).1 with
        currentVersionId := some version.id
        status := .published } := ⟨_, here, rfl⟩
  refine ⟨?_, ?_, ?_, ?_, ?_, ?_⟩
  · rw [map_updateDraft VersionRow.versionNo (by intro; rfl), length_updateDraft]
    exact sound.numbered
  · rw [map_updateDraft VersionRow.id (by intro; rfl)]
    exact sound.distinct
  · exact iff_of_true (.inl rfl) anyPublished
  · exact iff_of_true anyPublished points
  · exact fun _ => points
  · intro other member shown
    rcases mem_updateDraft.mp member with ⟨earlier, _⟩ | ⟨origin, within, numbered, rfl⟩
    · exact sound.publishable other earlier shown
    · rw [sound.draft_eq found within numbered]
      exact publishable

/-- Every effect keeps the invariant. -/
theorem sound_effect {request : QuestionRequest} {before after : Option QuestionRows}
    (effect : Effect request before after)
    (sound : ∀ question, before = some question → Sound question) :
    ∀ question, after = some question → Sound question := by
  rintro result rfl
  cases effect with
  | created accepted licence external => exact sound_new _ _
  | @moved question status archivedAt legal =>
      have earlier := sound question rfl
      exact { earlier with circulates := (legal_circulates legal).1.trans earlier.circulates }
  | @appended question version number draft fresh written =>
      exact sound_append (sound question rfl) number draft fresh
  | @edited question version versionNo content found draft written =>
      exact sound_edit (sound question rfl) versionNo content
  | @published question version versionNo status now asked found draft legal publishable =>
      exact sound_publish (sound question rfl) found draft legal publishable
  | @tagged question skills accepted visible seen => exact { sound question rfl with }

/-- Every effect grows the question. -/
theorem grows_effect {request : QuestionRequest} {question : QuestionRows}
    {after : Option QuestionRows} (effect : Effect request (some question) after) :
    ∃ later, after = some later ∧ Grows question later := by
  cases effect with
  | moved legal =>
      exact ⟨_, rfl, rfl, fun _ inside _ => inside, (legal_circulates legal).2⟩
  | appended number draft fresh written =>
      exact ⟨_, rfl, rfl, fun _ inside _ => List.mem_append_left _ inside, id⟩
  | edited found draft written =>
      exact ⟨_, rfl, rfl, fun _ inside shown => published_updateDraft inside shown, id⟩
  | published asked found draft legal publishable =>
      refine ⟨_, rfl, rfl, fun _ inside shown => published_updateDraft inside shown, ?_⟩
      intro retired
      exact absurd retired (publish_published legal).2
  | tagged accepted seen => exact ⟨_, rfl, rfl, fun _ inside _ => inside, id⟩

/-- Every effect publishes only what the kind rule admits. -/
theorem publishesSoundly_effect {request : QuestionRequest} {before after : Option QuestionRows}
    (effect : Effect request before after)
    (sound : ∀ question, before = some question → Sound question) :
    PublishesSoundly before after := by
  rintro result rfl version inside shown
  cases effect with
  | created accepted licence external => cases inside
  | @moved question status archivedAt legal => exact ⟨question, rfl, .inl inside⟩
  | @appended question added number draft fresh written =>
      refine ⟨question, rfl, .inl ?_⟩
      rcases List.mem_append.mp inside with earlier | last
      · exact earlier
      · rw [List.mem_singleton.mp last] at shown
        simp [VersionRow.isPublished, draft] at shown
  | @edited question edited versionNo content found draft written =>
      refine ⟨question, rfl, .inl ?_⟩
      rcases mem_updateDraft.mp inside with ⟨earlier, _⟩ | ⟨origin, _, numbered, rfl⟩
      · exact earlier
      · simp [VersionRow.isPublished, (draft_of_numbered numbered).2] at shown
  | @published question published versionNo status now asked found draft legal publishable =>
      refine ⟨question, rfl, ?_⟩
      rcases mem_updateDraft.mp inside with ⟨earlier, _⟩ | ⟨origin, within, numbered, rfl⟩
      · exact .inl earlier
      · refine .inr ⟨origin, within, (draft_of_numbered numbered).2, rfl, ?_⟩
        rw [(sound question rfl).draft_eq found within numbered]
        exact publishable
  | @tagged question skills accepted visible seen => exact ⟨question, rfl, .inl inside⟩

end Step

/-! ### Every interleaving -/

/-- The bank with its writers at work. -/
abbrev BankSystem :=
  System QuestionId QuestionRequest (Option QuestionRows) ApiError QuestionResponse

/-- No question, and nobody at work. -/
def emptyBank : BankSystem := .idle fun _ => none

theorem held_run (events : List (Event QuestionId QuestionRequest)) :
    (emptyBank.run handle events).Held handle :=
  System.held_run (System.held_idle _) events

theorem sound_run (events : List (Event QuestionId QuestionRequest)) (id : QuestionId) :
    ∀ question, (emptyBank.run handle events).store id = some question → Sound question := by
  refine System.run_invariant (fun _ _ => True)
    (fun _ row => ∀ question, row = some question → Sound question) ?_ (System.held_idle _)
    (System.each_of_forall (fun _ _ => trivial) events) ?_ id
  · intro key request row after response _ sound ran
    exact sound_effect (handle_effect ran) sound
  · intro key question absent
    cases absent

private theorem grows_trans {first second third : QuestionRows} (former : Grows first second)
    (latter : Grows second third) : Grows first third where
  kind := latter.kind.trans former.kind
  frozen version inside shown := latter.frozen version (former.frozen version inside shown) shown
  retired retired := latter.retired (former.retired retired)

theorem grows_run {system : BankSystem} (held : system.Held handle)
    (events : List (Event QuestionId QuestionRequest)) (id : QuestionId) {question : QuestionRows}
    (here : system.store id = some question) :
    ∃ later, (system.run handle events).store id = some later ∧ Grows question later := by
  refine System.run_related (fun _ _ => True) (fun _ before after =>
    ∀ question, before = some question → ∃ later, after = some later ∧ Grows question later)
    ?_ ?_ ?_ held events (fun _ => trivial) id question here
  · rintro key request _ after response _ ran
    refine ⟨trivial, ?_⟩
    rintro question rfl
    exact grows_effect (handle_effect ran)
  · rintro key _ question rfl
    exact ⟨question, rfl, rfl, fun _ inside _ => inside, fun retired => retired⟩
  · intro key first second third former latter question here
    obtain ⟨middle, reached, grown⟩ := former question here
    obtain ⟨last, final, more⟩ := latter middle reached
    exact ⟨last, final, grows_trans grown more⟩

/-- At every point of every interleaved run each question is sound, what it has published stays
as it is whatever runs after, and the next event publishes only what the kind rule admits. -/
theorem bank_sound (before after : List (Event QuestionId QuestionRequest)) :
    let now := emptyBank.run handle before
    let later := now.run handle after
    ∀ id question, now.store id = some question →
      Sound question ∧
        (∃ grown, later.store id = some grown ∧ Grows question grown) ∧
        ∀ event, PublishesSoundly (now.store id) ((now.step handle event).store id) := by
  intro now later id question here
  have held : now.Held handle := held_run before
  refine ⟨sound_run before id question here, grows_run held after id here, fun event => ?_⟩
  by_cases commit : ∃ request, now.commits event = some (id, request)
  · obtain ⟨request, commit⟩ := commit
    obtain ⟨response, ran⟩ := System.commits_runs held commit
    exact publishesSoundly_effect (handle_effect ran) (sound_run before id)
  · rw [System.step_others held fun request found => commit ⟨request, found⟩]
    exact fun same here version inside shown => ⟨same, here, .inl inside⟩

end Assaybank.Bank
