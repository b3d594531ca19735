import Assaybank.Api.Questions

/-!
Owns what a write can do to the rows of a question: one inversion lemma for all the routes.

Contract: a request that commits has one of the six effects of `Effect`, each with everything its
handler has checked (`handle_effect`). No result above this module opens a handler.
-/

namespace Assaybank.Bank

open Assaybank.Runtime Assaybank.Library Assaybank.Contracts Assaybank.Domain Assaybank.Db
open Assaybank.Api

/-- A question as it is created. -/
def newQuestion (input : CreateQuestion) (now : Instant) : QuestionRows where
  kind := input.kind
  status := .draft
  currentVersionId := none
  externalRef := input.externalRef.map toWellFormed
  sourceLicense := input.sourceLicense.map toWellFormed
  archivedAt := none
  createdAt := now
  skills := []
  versions := []

/-- Stored content that a body and the version it was laid on came to, as a draft of the kind. -/
def Written (kind : QuestionKind) (prior : Option VersionContent) (content : VersionContent) :
    Prop :=
  ∃ body merged, QuestionVersionInputSchema.Accepts body ∧
    mergeVersionContent prior body = some merged ∧
    validateKindContent kind (shapeOfContent merged) .draft = [] ∧
    takesContent merged = true ∧ content = storedContent merged

/-- What a committed write does to the rows of a question. -/
inductive Effect (request : QuestionRequest) :
    Option QuestionRows → Option QuestionRows → Prop where
  | created {input : CreateQuestion} {now : Instant} (accepted : CreateQuestionSchema.Accepts input)
      (licence : input.sourceLicense.all takesText = true)
      (external : input.externalRef.all takesText = true) :
      Effect request none (some (newQuestion input now))
  | moved {question : QuestionRows} {status : QuestionStatus} {archivedAt : Option Instant}
      (legal : status = question.status ∨ ∃ event, event ≠ .publish ∧
        transitionQuestion question.status event = .ok status) :
      Effect request (some question)
        (some { question with status := status, archivedAt := archivedAt })
  | appended {question : QuestionRows} {version : VersionRow}
      (number : version.versionNo = question.highestVersionNo + 1)
      (draft : version.publishedAt = none)
      (fresh : ∀ other ∈ question.versions, other.id ≠ version.id)
      (written : Written question.kind (question.latestVersion.map VersionRow.content)
        version.content) :
      Effect request (some question)
        (some { question with versions := question.versions ++ [version] })
  | edited {question : QuestionRows} {version : VersionRow} {versionNo : Nat}
      {content : VersionContent} (found : question.version? versionNo = some version)
      (draft : version.publishedAt = none)
      (written : Written question.kind (some version.content) content) :
      Effect request (some question)
        (some (updateDraft versionNo (fun other => { other with content := content }) question).1)
  | published {question : QuestionRows} {version : VersionRow} {versionNo : Nat}
      {status : QuestionStatus} {now : Instant} (asked : request = .postPublish versionNo now)
      (found : question.version? versionNo = some version) (draft : version.publishedAt = none)
      (legal : transitionQuestion question.status .publish = .ok status)
      (publishable : validateKindContent question.kind (shapeOfContent version.content)
        .publish = []) :
      Effect request (some question)
        (some
          { (updateDraft versionNo (fun other => { other with publishedAt := some now })
              question).1 with
            currentVersionId := some version.id
            status := status })
  | tagged {question : QuestionRows} {skills : List QuestionSkillInput}
      (accepted : PutQuestionSkillsSchema.Accepts skills) {visible : List SkillId}
      (seen : ∀ skill ∈ skills, skill.skillId ∈ visible) :
      Effect request (some question)
        (some { question with
          skills := skills.map fun skill => ⟨skill.skillId, toFixed2 skill.weight⟩ })

/-! ### What each part of a handler has checked -/

section Parts

variable {row after : Option QuestionRows}

private theorem parseBody_ok {α : Type} {schema : Schema α} {body : Value} {a : α}
    (ran : (parseBody schema body).run row = .ok (after, a)) :
    after = row ∧ schema.Accepts a := by
  unfold parseBody at ran
  rw [Transaction.run_ofExcept] at ran
  cases parsed : parseRequestPart schema body with
  | error refusal =>
      rw [parsed] at ran
      cases ran
  | ok read =>
      rw [parsed] at ran
      cases ran
      exact ⟨rfl, parseRequestPart_ok parsed⟩

private theorem requireQuestion_ok {includeArchived : Bool} {question : QuestionRows}
    (ran : (requireQuestion includeArchived).run row = .ok (after, question)) :
    after = row ∧ row = some question := by
  unfold requireQuestion at ran
  obtain ⟨middle, found, read, rest⟩ := Transaction.run_bind_ok.mp ran
  unfold getQuestionWithCurrentVersion at read
  rw [Transaction.run_query] at read
  cases read
  cases kept : row.filter fun question => includeArchived || question.archivedAt.isNone with
  | none =>
      rw [kept] at rest
      cases rest
  | some held =>
      rw [kept] at rest
      cases rest
      exact ⟨rfl, (Option.filter_eq_some_iff.mp kept).1⟩

private theorem requireVersion_ok {versionNo : Nat} {question : QuestionRows}
    {version : VersionRow}
    (ran : (requireVersion versionNo).run (some question) = .ok (after, version)) :
    after = some question ∧ question.version? versionNo = some version := by
  unfold requireVersion at ran
  obtain ⟨middle, found, read, rest⟩ := Transaction.run_bind_ok.mp ran
  unfold getVersion at read
  rw [Transaction.run_query] at read
  cases read
  simp only [Option.bind_some] at rest
  cases held : question.version? versionNo with
  | none =>
      rw [held] at rest
      cases rest
  | some version =>
      rw [held] at rest
      cases rest
      exact ⟨rfl, rfl⟩

private theorem nextStatus_ok {question : QuestionRows} {event : QuestionEvent}
    {status : QuestionStatus} (ran : (nextStatus question event).run row = .ok (after, status)) :
    after = row ∧ transitionQuestion question.status event = .ok status := by
  unfold nextStatus at ran
  split at ran
  · rename_i moved
    cases ran
    exact ⟨rfl, moved⟩
  · cases ran

private theorem assertKindContent_ok {kind : QuestionKind} {shape : KindContentShape}
    {stage : KindContentStage}
    (ran : (assertKindContent kind shape stage).run row = .ok (after, ())) :
    after = row ∧ validateKindContent kind shape stage = [] := by
  unfold assertKindContent at ran
  split at ran
  · rename_i clean
    cases ran
    exact ⟨rfl, clean⟩
  · cases ran

private theorem mergedContent_ok {prior : Option VersionRow} {body : QuestionVersionInput}
    {content : VersionContent}
    (ran : (mergedContent prior body).run row = .ok (after, content)) :
    after = row ∧ mergeVersionContent (prior.map VersionRow.content) body = some content := by
  unfold mergedContent at ran
  split at ran
  · cases ran
  · rename_i merged
    cases ran
    exact ⟨rfl, merged⟩

private theorem assertFirstVersionFields_ok {prior : Option VersionRow}
    {body : QuestionVersionInput}
    (ran : (assertFirstVersionFields prior body).run row = .ok (after, ())) : after = row := by
  unfold assertFirstVersionFields at ran
  split at ran
  · cases ran
    rfl
  · cases ran

private theorem updateQuestion_ok {condition : QuestionRows → Bool}
    {write : QuestionRows → QuestionRows} {question : QuestionRows} {written : Option QuestionRows}
    (ran : (updateQuestion condition write).run (some question) = .ok (after, written)) :
    (condition question = true ∧ after = some (write question) ∧
        written = some (write question)) ∨
      (after = some question ∧ written = none) := by
  unfold updateQuestion onQuestion at ran
  rw [Transaction.run_execute] at ran
  simp only at ran
  split at ran
  · rename_i holds
    cases ran
    exact .inl ⟨holds, rfl, rfl⟩
  · cases ran
    exact .inr ⟨rfl, rfl⟩

end Parts

/-! ### The handlers -/

section Handlers

variable {row after : Option QuestionRows}

private theorem postQuestion_effect {body : Value} {now : Instant} {created : QuestionRows}
    (ran : (postQuestion body now).run row = .ok (after, created)) :
    Effect (.postQuestion body now) row after := by
  unfold postQuestion at ran
  obtain ⟨middle, input, parsed, inserted⟩ := Transaction.run_bind_ok.mp ran
  obtain ⟨rfl, accepted⟩ := parseBody_ok parsed
  unfold createQuestion at inserted
  rw [Transaction.run_execute] at inserted
  split at inserted
  · rename_i allowed
    cases inserted
    simp only [Bool.and_eq_true, Option.isNone_iff_eq_none] at allowed
    obtain ⟨⟨rfl, licence⟩, external⟩ := allowed
    exact .created accepted licence external
  · cases inserted

private theorem patchStatus_ok {question written : QuestionRows} {status : Option PatchableStatus}
    (ran : (patchStatus question status).run (some question) = .ok (after, written)) :
    ∃ target, (target = question.status ∨ ∃ event, event ≠ .publish ∧
        transitionQuestion question.status event = .ok target) ∧
      after = some { question with status := target } ∧
      written = { question with status := target } := by
  cases status with
  | none =>
      cases ran
      exact ⟨question.status, .inl rfl, rfl, rfl⟩
  | some wanted =>
      obtain ⟨_, target, moved, rest⟩ := Transaction.run_bind_ok.mp ran
      obtain ⟨rfl, legal⟩ := nextStatus_ok moved
      obtain ⟨middle, answer, wrote, last⟩ := Transaction.run_bind_ok.mp rest
      have notPublish : eventForTargetStatus wanted ≠ .publish := by
        cases wanted <;> decide
      rcases updateQuestion_ok wrote with ⟨_, rfl, rfl⟩ | ⟨rfl, rfl⟩
      · cases last
        exact ⟨target, .inr ⟨_, notPublish, legal⟩, rfl, rfl⟩
      · cases last

private theorem patchArchived_ok {question result : QuestionRows} {now : Instant}
    {archived : Option Bool}
    (ran : (patchArchived question now archived).run (some question) = .ok (after, result)) :
    ∃ archivedAt, after = some { question with archivedAt := archivedAt } := by
  cases archived with
  | none =>
      cases ran
      exact ⟨question.archivedAt, rfl⟩
  | some archived =>
      unfold patchArchived at ran
      obtain ⟨middle, answer, wrote, last⟩ := Transaction.run_bind_ok.mp ran
      have either : ∃ archivedAt, middle = some { question with archivedAt := archivedAt } := by
        cases archived with
        | true =>
            rcases updateQuestion_ok wrote with ⟨_, rfl, _⟩ | ⟨rfl, _⟩
            · exact ⟨some now, rfl⟩
            · exact ⟨question.archivedAt, rfl⟩
        | false =>
            rcases updateQuestion_ok wrote with ⟨_, rfl, _⟩ | ⟨rfl, _⟩
            · exact ⟨none, rfl⟩
            · exact ⟨question.archivedAt, rfl⟩
      obtain ⟨archivedAt, rfl⟩ := either
      cases answer with
      | none =>
          obtain ⟨same, _⟩ := requireQuestion_ok last
          exact ⟨archivedAt, same⟩
      | some written =>
          cases last
          exact ⟨archivedAt, rfl⟩

private theorem patchQuestion_effect {body : Value} {now : Instant} {updated : QuestionRows}
    (ran : (patchQuestion body now).run row = .ok (after, updated)) :
    Effect (.patchQuestion body now) row after := by
  unfold patchQuestion at ran
  obtain ⟨_, patch, parsed, afterParse⟩ := Transaction.run_bind_ok.mp ran
  obtain ⟨rfl, _⟩ := parseBody_ok parsed
  obtain ⟨_, before, required, afterRequire⟩ := Transaction.run_bind_ok.mp afterParse
  obtain ⟨rfl, rfl⟩ := requireQuestion_ok required
  obtain ⟨_, current, moved, afterStatus⟩ := Transaction.run_bind_ok.mp afterRequire
  obtain ⟨target, legal, rfl, rfl⟩ := patchStatus_ok moved
  obtain ⟨archivedAt, rfl⟩ := patchArchived_ok afterStatus
  exact .moved legal

private theorem deleteQuestion_effect {now : Instant} {archived : QuestionRows}
    (ran : (deleteQuestion now).run row = .ok (after, archived)) :
    Effect (.deleteQuestion now) row after := by
  unfold deleteQuestion at ran
  obtain ⟨_, before, required, afterRequire⟩ := Transaction.run_bind_ok.mp ran
  obtain ⟨rfl, rfl⟩ := requireQuestion_ok required
  obtain ⟨_, answer, wrote, last⟩ := Transaction.run_bind_ok.mp afterRequire
  rw [Transaction.run_pure] at last
  cases last
  rcases updateQuestion_ok wrote with ⟨_, rfl, _⟩ | ⟨rfl, _⟩
  · exact .moved (.inl rfl)
  · exact .moved (.inl rfl)

private theorem createVersion_ok {question : QuestionRows} {id : VersionId}
    {content : VersionContent} {now : Instant} {created : VersionRow}
    (ran : (createVersion id content now).run (some question) = .ok (after, created)) :
    takesContent content = true ∧ (∀ other ∈ question.versions, other.id ≠ id) ∧
      after = some { question with versions := question.versions ++
        [⟨id, question.highestVersionNo + 1, storedContent content, none, now⟩] } := by
  unfold createVersion at ran
  obtain ⟨_, highest, read, inserted⟩ := Transaction.run_bind_ok.mp ran
  simp only [Transaction.run_query, Option.elim_some, Except.ok.injEq, Prod.mk.injEq] at read
  obtain ⟨rfl, rfl⟩ := read
  unfold insertVersion at inserted
  rw [Transaction.run_execute] at inserted
  simp only at inserted
  split at inserted
  · rename_i allowed
    cases inserted
    simp only [Bool.and_eq_true, List.all_eq_true, bne_iff_ne] at allowed
    exact ⟨allowed.1, fun other inside => (allowed.2 other inside).1, rfl⟩
  · cases inserted

private theorem postVersion_effect {body : Value} {id : VersionId} {now : Instant}
    {created : VersionRow} (ran : (postVersion body id now).run row = .ok (after, created)) :
    Effect (.postVersion body id now) row after := by
  unfold postVersion at ran
  obtain ⟨_, input, parsed, afterParse⟩ := Transaction.run_bind_ok.mp ran
  obtain ⟨rfl, accepted⟩ := parseBody_ok parsed
  obtain ⟨_, question, required, afterRequire⟩ := Transaction.run_bind_ok.mp afterParse
  obtain ⟨rfl, rfl⟩ := requireQuestion_ok required
  obtain ⟨_, prior, read, afterRead⟩ := Transaction.run_bind_ok.mp afterRequire
  unfold getLatestVersion at read
  rw [Transaction.run_query] at read
  cases read
  obtain ⟨_, _, supplied, afterFields⟩ := Transaction.run_bind_ok.mp afterRead
  obtain rfl := assertFirstVersionFields_ok supplied
  obtain ⟨_, merged, merging, afterMerge⟩ := Transaction.run_bind_ok.mp afterFields
  obtain ⟨rfl, came⟩ := mergedContent_ok merging
  obtain ⟨_, _, asserted, afterAssert⟩ := Transaction.run_bind_ok.mp afterMerge
  obtain ⟨rfl, clean⟩ := assertKindContent_ok asserted
  obtain ⟨taken, fresh, rfl⟩ := createVersion_ok afterAssert
  exact .appended rfl rfl fresh ⟨input, merged, accepted, came, clean, taken, rfl⟩

/-- The first version of a number is the one an update of that number's draft finds first. -/
theorem find_draft {question : QuestionRows} {versionNo : Nat} {version : VersionRow}
    (found : question.version? versionNo = some version) (draft : version.publishedAt = none) :
    question.versions.find? (isDraftNumbered versionNo) = some version := by
  unfold QuestionRows.version? at found
  rw [List.find?_eq_some_iff_append] at found ⊢
  obtain ⟨numbered, earlier, later, split, others⟩ := found
  refine ⟨?_, earlier, later, split, fun other inside => ?_⟩
  · simp [isDraftNumbered, VersionRow.isPublished, draft, numbered]
  · have apart := others other inside
    simp only [Bool.not_eq_eq_eq_not, Bool.not_true] at apart
    simp [isDraftNumbered, apart]

private theorem patchVersion_effect {versionNo : Nat} {body : Value} {updated : VersionRow}
    (ran : (patchVersion versionNo body).run row = .ok (after, updated)) :
    Effect (.patchVersion versionNo body) row after := by
  unfold patchVersion at ran
  obtain ⟨_, input, parsed, afterParse⟩ := Transaction.run_bind_ok.mp ran
  obtain ⟨rfl, accepted⟩ := parseBody_ok parsed
  obtain ⟨_, question, required, afterRequire⟩ := Transaction.run_bind_ok.mp afterParse
  obtain ⟨rfl, rfl⟩ := requireQuestion_ok required
  obtain ⟨_, before, named, afterVersion⟩ := Transaction.run_bind_ok.mp afterRequire
  obtain ⟨rfl, found⟩ := requireVersion_ok named
  split at afterVersion
  · cases afterVersion
  · rename_i draft
    obtain ⟨_, merged, merging, afterMerge⟩ := Transaction.run_bind_ok.mp afterVersion
    obtain ⟨rfl, came⟩ := mergedContent_ok merging
    obtain ⟨_, _, asserted, afterAssert⟩ := Transaction.run_bind_ok.mp afterMerge
    obtain ⟨rfl, clean⟩ := assertKindContent_ok asserted
    obtain ⟨_, answer, wrote, last⟩ := Transaction.run_bind_ok.mp afterAssert
    unfold updateVersion onQuestion at wrote
    rw [Transaction.run_execute] at wrote
    simp only [find_draft found draft, Option.isNone_some, Bool.false_or] at wrote
    split at wrote
    · rename_i taken
      cases wrote
      simp only [updateDraft, find_draft found draft, Option.map_some] at last
      cases last
      exact .edited found draft ⟨input, merged, accepted, came, clean, taken, rfl⟩
    · cases wrote

private theorem publishVersion_ok {question : QuestionRows} {versionNo : Nat} {now : Instant}
    {version : VersionRow} {answer : Option VersionRow}
    (found : question.version? versionNo = some version) (draft : version.publishedAt = none)
    (ran : (publishVersion versionNo now).run (some question) = .ok (after, answer)) :
    answer = some { version with publishedAt := some now } ∧
      after = some
        { (updateDraft versionNo (fun other => { other with publishedAt := some now })
            question).1 with
          currentVersionId := some version.id } := by
  unfold publishVersion at ran
  obtain ⟨_, frozen, wrote, pointing⟩ := Transaction.run_bind_ok.mp ran
  unfold onQuestion at wrote
  rw [Transaction.run_execute] at wrote
  cases wrote
  simp only [find_draft found draft, Option.map_some] at pointing
  obtain ⟨_, _, pointed, last⟩ := Transaction.run_bind_ok.mp pointing
  unfold onQuestion at pointed
  rw [Transaction.run_execute] at pointed
  cases pointed
  cases last
  exact ⟨rfl, rfl⟩

/-- A publication that commits has frozen the draft it names and pointed the question at it. -/
theorem postPublish_ok {versionNo : Nat} {now : Instant} {updated : VersionRow}
    (ran : (postPublish versionNo now).run row = .ok (after, updated)) :
    ∃ question version status, row = some question ∧
      question.version? versionNo = some version ∧ version.publishedAt = none ∧
      transitionQuestion question.status .publish = .ok status ∧
      validateKindContent question.kind (shapeOfContent version.content) .publish = [] ∧
      after = some
        { (updateDraft versionNo (fun other => { other with publishedAt := some now })
            question).1 with
          currentVersionId := some version.id
          status := status } := by
  unfold postPublish at ran
  obtain ⟨_, question, required, afterRequire⟩ := Transaction.run_bind_ok.mp ran
  obtain ⟨rfl, rfl⟩ := requireQuestion_ok required
  obtain ⟨_, before, named, afterVersion⟩ := Transaction.run_bind_ok.mp afterRequire
  obtain ⟨rfl, found⟩ := requireVersion_ok named
  split at afterVersion
  · cases afterVersion
  · rename_i draft
    obtain ⟨_, status, moved, afterStatus⟩ := Transaction.run_bind_ok.mp afterVersion
    obtain ⟨rfl, legal⟩ := nextStatus_ok moved
    obtain ⟨_, _, asserted, afterAssert⟩ := Transaction.run_bind_ok.mp afterStatus
    obtain ⟨rfl, publishable⟩ := assertKindContent_ok asserted
    obtain ⟨_, answer, frozen, last⟩ := Transaction.run_bind_ok.mp afterAssert
    obtain ⟨rfl, rfl⟩ := publishVersion_ok found draft frozen
    refine ⟨question, before, status, rfl, found, draft, legal, publishable, ?_⟩
    simp only at last
    split at last
    · obtain ⟨_, written, wrote, finished⟩ := Transaction.run_bind_ok.mp last
      rcases updateQuestion_ok wrote with ⟨_, rfl, rfl⟩ | ⟨rfl, rfl⟩
      · cases finished
        rfl
      · cases finished
    · rename_i same
      simp only [ne_eq, not_not] at same
      cases last
      rw [same]
      rfl

private theorem assertSkillsVisible_ok {visible : List SkillId} {skills : List QuestionSkillInput}
    (ran : (assertSkillsVisible visible skills).run row = .ok (after, ())) :
    after = row ∧ ∀ skill ∈ skills, skill.skillId ∈ visible := by
  unfold assertSkillsVisible at ran
  split at ran
  · rename_i none
    cases ran
    refine ⟨rfl, fun skill inside => ?_⟩
    obtain ⟨position, bound, rfl⟩ := List.getElem_of_mem inside
    have seen := List.filter_eq_nil_iff.mp none (skills[position], position)
      (List.mem_zipIdx_iff_getElem?.mpr (by simp [bound]))
    simpa using seen
  · cases ran

private theorem putSkills_effect {body : Value} {visible : List SkillId}
    {written : List QuestionSkill}
    (ran : (putSkills body visible).run row = .ok (after, written)) :
    Effect (.putSkills body visible) row after := by
  unfold putSkills at ran
  obtain ⟨_, skills, parsed, afterParse⟩ := Transaction.run_bind_ok.mp ran
  obtain ⟨rfl, accepted⟩ := parseBody_ok parsed
  obtain ⟨_, question, required, afterRequire⟩ := Transaction.run_bind_ok.mp afterParse
  obtain ⟨rfl, rfl⟩ := requireQuestion_ok required
  obtain ⟨_, _, asserted, afterAssert⟩ := Transaction.run_bind_ok.mp afterRequire
  obtain ⟨rfl, seen⟩ := assertSkillsVisible_ok asserted
  obtain ⟨_, _, tagging, last⟩ := Transaction.run_bind_ok.mp afterAssert
  obtain ⟨_, kept, again, answered⟩ := Transaction.run_bind_ok.mp last
  obtain ⟨rfl, rfl⟩ := requireQuestion_ok again
  cases answered
  unfold setQuestionSkills at tagging
  obtain ⟨_, _, deleted, inserting⟩ := Transaction.run_bind_ok.mp tagging
  unfold onQuestion at deleted
  rw [Transaction.run_execute] at deleted
  cases deleted
  split at inserting
  · rename_i none
    cases inserting
    have empty : skills = [] := List.map_eq_nil_iff.mp none
    subst empty
    exact .tagged accepted seen
  · unfold onQuestion at inserting
    rw [Transaction.run_execute] at inserting
    simp only at inserting
    split at inserting
    · cases inserting
      simp only [List.map_map]
      exact .tagged accepted seen
    · cases inserting

/-- A request that commits has one of the effects above. -/
theorem handle_effect {id : QuestionId} {request : QuestionRequest} {response : QuestionResponse}
    (ran : (handle id request).run row = .ok (after, response)) : Effect request row after := by
  cases request with
  | postQuestion body now =>
      obtain ⟨_, _, handled, last⟩ := Transaction.run_bind_ok.mp ran
      cases last
      exact postQuestion_effect handled
  | patchQuestion body now =>
      obtain ⟨_, _, handled, last⟩ := Transaction.run_bind_ok.mp ran
      cases last
      exact patchQuestion_effect handled
  | deleteQuestion now =>
      obtain ⟨_, _, handled, last⟩ := Transaction.run_bind_ok.mp ran
      cases last
      exact deleteQuestion_effect handled
  | postVersion body id now =>
      obtain ⟨_, _, handled, last⟩ := Transaction.run_bind_ok.mp ran
      cases last
      exact postVersion_effect handled
  | patchVersion versionNo body =>
      obtain ⟨_, _, handled, last⟩ := Transaction.run_bind_ok.mp ran
      cases last
      exact patchVersion_effect handled
  | postPublish versionNo now =>
      obtain ⟨_, _, handled, last⟩ := Transaction.run_bind_ok.mp ran
      cases last
      obtain ⟨_, _, _, rfl, found, draft, legal, publishable, rfl⟩ := postPublish_ok handled
      exact .published rfl found draft legal publishable
  | putSkills body visible =>
      obtain ⟨_, _, handled, last⟩ := Transaction.run_bind_ok.mp ran
      cases last
      exact putSkills_effect handled

end Handlers

end Assaybank.Bank
