import Assaybank.Bank.Sound
import Assaybank.Jobs.BankTransfer

/-!
Owns the agreement between the version a question serves and the version a reader of its export
takes to be served.

An export carries no current pointer: `servedOrLatest` takes the last published version instead.
The two agree in a state when no published version is numbered above the current one, and in a
run as long as every publication is of a number above those already published.
-/

namespace Assaybank.Bank

open Assaybank.Runtime Assaybank.Library Assaybank.Contracts Assaybank.Domain Assaybank.Db
open Assaybank.Api Assaybank.Interchange Assaybank.Jobs

/-! ### One state -/

section State

variable {question : QuestionRows}

private theorem versions_ascend (sound : Sound question) :
    question.versions.Pairwise fun left right => left.versionNo < right.versionNo := by
  have numbers : (question.versions.map VersionRow.versionNo).Pairwise (· < ·) := by
    rw [sound.numbered]
    exact List.pairwise_lt_range'
  exact List.pairwise_map.mp numbers

/-- The export lists the versions as they are numbered. -/
theorem allVersions_of_sound (sound : Sound question) :
    allVersions question = question.versions.map toBankVersion := by
  unfold allVersions
  apply List.Pairwise.insertionSort_eq
  rw [List.pairwise_map]
  exact (versions_ascend sound).imp fun less => Int.ofNat_le.mpr less.le

/-- In a list that ascends, the last of a kind is numbered above the others of it. -/
private theorem getLast?_filter_le {versions : List VersionRow} {last : VersionRow}
    (ascend : versions.Pairwise fun left right => left.versionNo < right.versionNo)
    (found : (versions.filter VersionRow.isPublished).getLast? = some last) :
    (last ∈ versions ∧ last.isPublished = true) ∧
      ∀ other ∈ versions, other.isPublished = true → other.versionNo ≤ last.versionNo := by
  obtain ⟨earlier, split⟩ := List.getLast?_eq_some_iff.mp found
  have inside : last ∈ versions.filter VersionRow.isPublished := by simp [split]
  refine ⟨by simpa using inside, fun other member published => ?_⟩
  have sorted := ascend.filter VersionRow.isPublished
  rw [split, List.pairwise_append] at sorted
  have among : other ∈ versions.filter VersionRow.isPublished := by simp [member, published]
  rw [split, List.mem_append, List.mem_singleton] at among
  rcases among with before | rfl
  · exact (sorted.2.2 other before last (List.mem_singleton_self last)).le
  · exact Nat.le_refl _

private theorem filter_published (versions : List VersionRow) :
    (versions.map toBankVersion).filter BankVersion.published =
      (versions.filter VersionRow.isPublished).map toBankVersion := by
  rw [List.filter_map]
  rfl

theorem mem_of_currentVersion {version : VersionRow}
    (current : question.currentVersion = some version) :
    version ∈ question.versions ∧ question.currentVersionId = some version.id := by
  unfold QuestionRows.currentVersion at current
  obtain ⟨id, pointer, found⟩ := Option.bind_eq_some_iff.mp current
  have named : version.id = id := by simpa using List.find?_some found
  exact ⟨List.mem_of_find?_eq_some found, by rw [pointer, named]⟩

private theorem current_published (sound : Sound question) {version : VersionRow}
    (inside : version ∈ question.versions) (pointer : question.currentVersionId = some version.id) :
    version.isPublished = true := by
  obtain ⟨named, member, same, published⟩ := sound.named pointer
  rw [← sound.identified member inside same]
  exact published

/-- The reader of an export takes the current version for the served one exactly when no published
version is numbered above it. -/
theorem servedOrLatest_iff (sound : Sound question) {version : VersionRow}
    (current : question.currentVersion = some version) (ref : JsString)
    (keyById : SkillId → Option JsString) :
    servedOrLatest (exportedItem ref keyById question) = some (toBankVersion version) ↔
      ∀ other ∈ question.versions, other.isPublished = true →
        other.versionNo ≤ version.versionNo := by
  obtain ⟨inside, pointer⟩ := mem_of_currentVersion current
  have published := current_published sound inside pointer
  have some? : ((question.versions.filter VersionRow.isPublished).getLast?).isSome := by
    rw [List.getLast?_isSome]
    exact List.ne_nil_of_mem (List.mem_filter.mpr ⟨inside, published⟩)
  obtain ⟨last, found⟩ := Option.isSome_iff_exists.mp some?
  obtain ⟨⟨member, shown⟩, highest⟩ := getLast?_filter_le (versions_ascend sound) found
  have served : servedOrLatest (exportedItem ref keyById question) = some (toBankVersion last) := by
    unfold servedOrLatest exportedItem
    simp only [allVersions_of_sound sound, filter_published, List.getLast?_map, found,
      Option.map_some, Option.some_or]
  rw [served]
  constructor
  · intro same other within visible
    have numbers : last.versionNo = version.versionNo := by
      have := congrArg BankVersion.versionNo (Option.some.inj same)
      simpa [toBankVersion] using this
    rw [← numbers]
    exact highest other within visible
  · intro above
    have equal : last.versionNo = version.versionNo :=
      Nat.le_antisymm (above last member shown) (highest version inside published)
    rw [sound.unique member inside equal]

end State

/-! ### Every run -/

/-- A publication is of a number above those already published. -/
def Ascending (row : Option QuestionRows) (request : QuestionRequest) : Prop :=
  ∀ versionNo now, request = .postPublish versionNo now → ∀ question, row = some question →
    ∀ version ∈ question.versions, version.isPublished = true → version.versionNo < versionNo

/-- No published version is numbered above the current one. -/
def CurrentIsHighest (question : QuestionRows) : Prop :=
  ∀ version ∈ question.versions, question.currentVersionId = some version.id →
    ∀ other ∈ question.versions, other.isPublished = true → other.versionNo ≤ version.versionNo

/-- Every question's export serves the version the question serves. -/
def ServesCurrent (system : BankSystem) : Prop :=
  ∀ id question version, system.store id = some question →
    question.currentVersion = some version → ∀ ref keyById,
      servedOrLatest (exportedItem ref keyById question) = some (toBankVersion version)

section Run

variable {question : QuestionRows}

/-- The draft whose identifier an update keeps is the one of that identifier. -/
private theorem origin_of_updated (sound : Sound question) {versionNo : Nat}
    {write : VersionRow → VersionRow} (ids : ∀ v, (write v).id = v.id)
    (numbers : ∀ v, (write v).versionNo = v.versionNo) {version updated : VersionRow}
    (inside : version ∈ question.versions)
    (member : updated ∈ (updateDraft versionNo write question).1.versions)
    (same : updated.id = version.id) : updated.versionNo = version.versionNo := by
  rcases mem_updateDraft.mp member with ⟨here, _⟩ | ⟨draft, here, _, rfl⟩
  · rw [sound.identified here inside same]
  · rw [ids] at same
    rw [numbers, sound.identified here inside same]

private theorem highest_append (sound : Sound question) (highest : CurrentIsHighest question)
    {version : VersionRow} (draft : version.publishedAt = none)
    (fresh : ∀ other ∈ question.versions, other.id ≠ version.id) :
    CurrentIsHighest { question with versions := question.versions ++ [version] } := by
  intro current member pointer other within shown
  have earlier : other ∈ question.versions := by
    rcases List.mem_append.mp within with old | new
    · exact old
    · rw [List.mem_singleton.mp new] at shown
      simp [VersionRow.isPublished, draft] at shown
  rcases List.mem_append.mp member with old | new
  · exact highest current old pointer other earlier shown
  · rw [List.mem_singleton.mp new] at pointer
    obtain ⟨named, old, same, _⟩ := sound.named pointer
    exact absurd same (fresh named old)

private theorem highest_edit (sound : Sound question) (highest : CurrentIsHighest question)
    (versionNo : Nat) (content : VersionContent) :
    CurrentIsHighest
      (updateDraft versionNo (fun other => { other with content := content }) question).1 := by
  intro current member pointer other within shown
  have earlier : other ∈ question.versions := by
    rcases mem_updateDraft.mp within with ⟨old, _⟩ | ⟨draft, _, numbered, rfl⟩
    · exact old
    · simp [VersionRow.isPublished, (draft_of_numbered numbered).2] at shown
  obtain ⟨named, old, same, _⟩ := sound.named pointer
  rw [origin_of_updated sound (by intro; rfl) (by intro; rfl) old member same.symm]
  refine highest named old ?_ other earlier shown
  rw [same]
  exact pointer

/-- After a publication the current version is the highest exactly when the published numbers
were below it. -/
private theorem highest_publish_iff (sound : Sound question) {version : VersionRow}
    {versionNo : Nat} {status : QuestionStatus} {now : Instant}
    (found : question.version? versionNo = some version) (draft : version.publishedAt = none) :
    CurrentIsHighest
        { (updateDraft versionNo (fun other => { other with publishedAt := some now })
            question).1 with
          currentVersionId := some version.id
          status := status } ↔
      ∀ other ∈ question.versions, other.isPublished = true → other.versionNo < versionNo := by
  obtain ⟨inside, number⟩ := mem_of_version? found
  constructor
  · intro highest other member shown
    have here : { version with publishedAt := some now } ∈
        (updateDraft versionNo (fun other => { other with publishedAt := some now })
          question).1.versions := by
      refine mem_updateDraft.mpr (.inr ⟨version, inside, ?_, rfl⟩)
      simp [isDraftNumbered, VersionRow.isPublished, draft, number]
    have bound : other.versionNo ≤ version.versionNo :=
      highest _ here rfl other (published_updateDraft member shown) shown
    have apart : other.versionNo ≠ version.versionNo := by
      intro same
      rw [sound.unique member inside same] at shown
      simp [VersionRow.isPublished, draft] at shown
    omega
  · intro below current member pointer other within shown
    have equal : current.versionNo = version.versionNo :=
      origin_of_updated sound (by intro; rfl) (by intro; rfl) inside member
        (Option.some.inj pointer).symm
    rw [equal, number]
    rcases mem_updateDraft.mp within with ⟨old, _⟩ | ⟨origin, _, numbered, rfl⟩
    · exact (below other old shown).le
    · exact (draft_of_numbered numbered).1.le

/-- Every effect of an ascending request keeps the current version the highest. -/
private theorem highest_effect {request : QuestionRequest} {before after : Option QuestionRows}
    (effect : Effect request before after) (ascending : Ascending before request)
    (kept : ∀ question, before = some question → Sound question ∧ CurrentIsHighest question) :
    ∀ question, after = some question → CurrentIsHighest question := by
  rintro result rfl
  cases effect with
  | created accepted licence external => exact fun version inside => by cases inside
  | @moved question status archivedAt legal => exact (kept question rfl).2
  | @appended question version number draft fresh written =>
      exact highest_append (kept question rfl).1 (kept question rfl).2 draft fresh
  | @edited question version versionNo content found draft written =>
      exact highest_edit (kept question rfl).1 (kept question rfl).2 versionNo content
  | @published question version versionNo status now asked found draft legal publishable =>
      exact (highest_publish_iff (kept question rfl).1 found draft).mpr
        (ascending versionNo now asked question rfl)
  | @tagged question skills accepted visible seen => exact (kept question rfl).2

/-- A commit after which the current version is the highest was ascending. -/
private theorem ascending_of_highest {id : QuestionId} {request : QuestionRequest}
    {before after : Option QuestionRows} {response : QuestionResponse}
    (ran : (handle id request).run before = .ok (after, response))
    (sound : ∀ question, before = some question → Sound question)
    (highest : ∀ question, after = some question → CurrentIsHighest question) :
    Ascending before request := by
  rintro versionNo now rfl question rfl
  obtain ⟨_, _, handled, last⟩ := Transaction.run_bind_ok.mp ran
  cases last
  obtain ⟨_, version, status, same, found, draft, legal, publishable, rfl⟩ := postPublish_ok handled
  cases same
  exact (highest_publish_iff (sound question rfl) found draft).mp (highest _ rfl)

private theorem servesCurrent_iff {system : BankSystem}
    (sound : ∀ id question, system.store id = some question → Sound question) :
    ServesCurrent system ↔
      ∀ id question, system.store id = some question → CurrentIsHighest question := by
  constructor
  · intro serves id question here version inside pointer
    have known := sound id question here
    have current : question.currentVersion = some version := by
      unfold QuestionRows.currentVersion
      rw [pointer, Option.bind_some]
      cases found : question.versions.find? fun other => other.id == version.id with
      | none =>
          have missing := List.find?_eq_none.mp found version inside
          simp at missing
      | some other =>
          have id : other.id = version.id := by simpa using List.find?_some found
          rw [known.identified (List.mem_of_find?_eq_some found) inside id]
    exact (servedOrLatest_iff known current [] fun _ => none).mp
      (serves id question version here current [] fun _ => none)
  · intro highest id question version here current ref keyById
    obtain ⟨inside, pointer⟩ := mem_of_currentVersion current
    exact (servedOrLatest_iff (sound id question here) current ref keyById).mpr
      (highest id question here version inside pointer)

private theorem highest_run {system : BankSystem} (held : system.Held handle)
    {events : List (Event QuestionId QuestionRequest)}
    (each : System.Each handle Ascending system events)
    (begins : ∀ id question, system.store id = some question →
      Sound question ∧ CurrentIsHighest question) :
    ∀ id question, (system.run handle events).store id = some question →
      Sound question ∧ CurrentIsHighest question := by
  refine System.run_invariant Ascending
    (fun _ row => ∀ question, row = some question → Sound question ∧ CurrentIsHighest question)
    ?_ held each begins
  intro key request row after response ascending kept ran question here
  have effect := handle_effect ran
  exact ⟨sound_effect effect (fun question here => (kept question here).1) question here,
    highest_effect effect ascending kept question here⟩

private theorem each_of_highest {system : BankSystem} (held : system.Held handle)
    (sound : ∀ id question, system.store id = some question → Sound question)
    {events : List (Event QuestionId QuestionRequest)}
    (highest : ∀ before, before <+: events → ∀ id question,
      (system.run handle before).store id = some question → CurrentIsHighest question) :
    System.Each handle Ascending system events := by
  induction events generalizing system with
  | nil => trivial
  | cons event rest inductionHypothesis =>
      have still := (System.step_serial held event).1
      have next : ∀ id question, (system.step handle event).store id = some question →
          Sound question := by
        intro id
        by_cases commit : ∃ request, system.commits event = some (id, request)
        · obtain ⟨request, commit⟩ := commit
          obtain ⟨response, ran⟩ := System.commits_runs held commit
          exact sound_effect (handle_effect ran) (sound id)
        · rw [System.step_others held fun request found => commit ⟨request, found⟩]
          exact sound id
      refine ⟨fun id request commit => ?_, inductionHypothesis still next fun before within =>
        highest (event :: before) (List.cons_prefix_cons.mpr ⟨rfl, within⟩)⟩
      obtain ⟨response, ran⟩ := System.commits_runs held commit
      exact ascending_of_highest ran (sound id)
        (highest [event] (List.cons_prefix_cons.mpr ⟨rfl, List.nil_prefix⟩) id)

end Run

/-- Along a run every export serves what the bank serves exactly as long as each publication is
of a number above those its question has already published. -/
theorem export_serves_current_iff (events : List (Event QuestionId QuestionRequest)) :
    (∀ before, before <+: events → ServesCurrent (emptyBank.run handle before)) ↔
      System.Each handle Ascending emptyBank events := by
  have nothing : ∀ id question, emptyBank.store id = some question →
      Sound question ∧ CurrentIsHighest question := by
    intro id question absent
    cases absent
  constructor
  · intro serves
    refine each_of_highest (System.held_idle _) (fun id question here => (nothing id question here).1)
      fun before within => ?_
    exact (servesCurrent_iff (sound_run before)).mp (serves before within)
  · intro each before within
    obtain ⟨rest, rfl⟩ := within
    refine (servesCurrent_iff (sound_run before)).mpr fun id question here => ?_
    exact (highest_run (System.held_idle _) (System.each_append.mp each).1 nothing id question here).2

/-! ### A run out of order -/

/-- One request from its start to its end. -/
def served (session : Nat) (key : QuestionId) (request : QuestionRequest) :
    List (Event QuestionId QuestionRequest) :=
  .start session key request :: List.replicate 12 (.advance session)

/-- The body of a version with a prompt and a difficulty. -/
def versionBody (prompt : String) : Value :=
  .object [(js "prompt_md", .string (js prompt)), (js "difficulty", .number 1)]

/-- Two drafts of a subjective question, published second first. -/
def publishedOutOfOrder : List (Event QuestionId QuestionRequest) :=
  let question := js "q"
  served 0 question (.postQuestion (.object [(js "kind", .string (js "subjective"))]) 0) ++
    served 1 question (.postVersion (versionBody "first") (js "v1") 1) ++
    served 2 question (.postVersion (versionBody "second") (js "v2") 2) ++
    served 3 question (.patchQuestion (.object [(js "status", .string (js "review"))]) 3) ++
    served 4 question (.postPublish 2 4) ++ served 5 question (.postPublish 1 5)

/-- The bank serves the first version, and a reader of its export the second. -/
theorem export_serves_stale : ¬ ServesCurrent (emptyBank.run handle publishedOutOfOrder) := by
  intro serves
  have differs : ((emptyBank.run handle publishedOutOfOrder).store (js "q")).any (fun question =>
      question.currentVersion.any fun version => decide
        (servedOrLatest (exportedItem [] (fun _ => none) question) ≠
          some (toBankVersion version))) = true := by
    decide +kernel
  obtain ⟨question, here, found⟩ := (Option.any_eq_true _ _).mp differs
  obtain ⟨version, current, apart⟩ := (Option.any_eq_true _ _).mp found
  exact of_decide_eq_true apart (serves _ question version here current [] fun _ => none)

end Assaybank.Bank
