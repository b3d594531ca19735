import Assaybank.Jobs.BusinessKey
import Assaybank.Library.Schema
import Assaybank.Runtime.Calendar
import Mathlib.Algebra.Order.Ring.Rat

/-!
Owns dead-lettering (`apps/worker/src/dlq.ts`, and `createDeadLetterSink` of `queues.ts`): whether a
failed attempt is the last, what is then written, and whether the dead-letter queue takes it.

Contract: a dead letter is written exactly when the failed job is there with an id that has no colon
and that the queue takes as a custom id (`dead_letter_kept_iff`), and stays over the failures that
follow (`dead_letters_kept_run`). A job or an id that is missing is given an id made from the time,
whose colons the queue refuses (`missing_job_refused`).

It does not own the queue, which is a service: which custom ids it refuses, and what it holds, are
its own. Nor the bucket that an error falls into (`metrics.ts`): an error carries it.
-/

namespace Assaybank.Jobs.DeadLetter

open Assaybank.Runtime Assaybank.Library Assaybank.Jobs

inductive QueueName where
  | gradingRun
  | gradingSubmit
  | webhooksDeliver
  | notificationsEmail
  | bankJobs
  | maintenanceCron
deriving DecidableEq

def QueueName.text : QueueName → JsString
  | .gradingRun => js "grading.run"
  | .gradingSubmit => js "grading.submit"
  | .webhooksDeliver => js "webhooks.deliver"
  | .notificationsEmail => js "notifications.email"
  | .bankJobs => js "bank.jobs"
  | .maintenanceCron => js "maintenance.cron"

def DLQ_SUFFIX : JsString := js ".dlq"

def deadLetterQueueName (queue : QueueName) : JsString := queue.text ++ DLQ_SUFFIX

def MAX_FAILED_REASON_CHARS : Nat := 512

inductive DeadLetterReason where
  | attemptsExhausted
  | unrecoverable
deriving DecidableEq

/-- A count of attempts is `none` when it is not finite. -/
structure DeadLetterDecisionInput where
  queue : QueueName
  attemptsMade : Option ℚ
  maxAttempts : Option ℚ
  unrecoverable : Bool

inductive DeadLetterDecision where
  | retry (nextAttempt attemptsRemaining : ℚ)
  | deadLetter (reason : DeadLetterReason) (queue : JsString)
deriving DecidableEq

/-- Whether a failed attempt is the last one. -/
def deadLetterDecision (input : DeadLetterDecisionInput) : DeadLetterDecision :=
  if input.unrecoverable then .deadLetter .unrecoverable (deadLetterQueueName input.queue)
  else
    let attemptsMade := input.attemptsMade.getD 0
    let budget := (input.maxAttempts.filter fun attempts => attempts > 0).getD 1
    if attemptsMade < 1 ∨ attemptsMade ≥ budget then
      .deadLetter .attemptsExhausted (deadLetterQueueName input.queue)
    else .retry (attemptsMade + 1) (budget - attemptsMade)

/-- A thrown value. An error carries the bucket it falls into. -/
inductive Thrown where
  | error (name message failureClass : JsString)
  | string (text : JsString)
  | other

def classifyFailure : Thrown → JsString
  | .error _ _ failureClass => failureClass
  | _ => js "unknown"

def truncateReason (error : Thrown) : JsString :=
  let raw :=
    match error with
    | .error name message _ => name ++ js ": " ++ message
    | .string text => text
    | .other => js "non-error thrown"
  if raw.length ≤ MAX_FAILED_REASON_CHARS then raw
  else slice raw 0 MAX_FAILED_REASON_CHARS ++ js "…[truncated]"

/-- A job's payload. One that is `undefined` is `none`. -/
abbrev JobData := Option Value

structure DeadLetterEnvelope where
  queue : QueueName
  jobId : JsString
  jobName : JsString
  data : JobData
  attemptsMade : Option ℚ
  reason : DeadLetterReason
  failureClass : JsString
  failedReason : JsString
  failedAt : JsString
  traceId : Option JsString
  consequence : JsString

structure DeadLetterEnvelopeInput where
  queue : QueueName
  jobId : Option JsString
  jobName : JsString
  data : JobData
  attemptsMade : Option ℚ
  reason : DeadLetterReason
  failureClass : JsString
  error : Thrown
  consequence : JsString
  traceId : Option JsString
  now : Int

def deadLetterEnvelope (input : DeadLetterEnvelopeInput) : DeadLetterEnvelope where
  queue := input.queue
  jobId := input.jobId.getD (js "unknown:" ++ toISOString input.now)
  jobName := input.jobName
  data := input.data
  attemptsMade := input.attemptsMade
  reason := input.reason
  failureClass := input.failureClass
  failedReason := truncateReason input.error
  failedAt := toISOString input.now
  traceId := input.traceId
  consequence := input.consequence

/-! ### The dead-letter queue -/

/-- The dead-letter queue: the custom job ids it refuses, the letters it holds, and what an `add`
under an id it takes leaves of it. -/
structure LetterQueue (State : Type) where
  refuses : JsString → Bool
  letters : State → List DeadLetterEnvelope
  add : State → DeadLetterEnvelope → State

/-- The jobs the queue holds a letter of. -/
def LetterQueue.jobIds {State : Type} (queue : LetterQueue State) (state : State) : List JsString :=
  (queue.letters state).map DeadLetterEnvelope.jobId

/-- What is relied on: ids with a colon are refused, but for those of the three parts an old
repeatable job has; a letter that was added is there, unless one of its job was; and a letter that is
there is not dropped. -/
structure LetterQueue.Documented {State : Type} (queue : LetterQueue State) : Prop where
  colon : ∀ jobId, unit ':' ∈ jobId → jobId.count (unit ':') ≠ 2 → queue.refuses jobId = true
  held : ∀ state letter, queue.refuses letter.jobId = false →
    letter.jobId ∈ queue.jobIds (queue.add state letter)
  kept : ∀ state letter jobId, jobId ∈ queue.jobIds state →
    jobId ∈ queue.jobIds (queue.add state letter)

/-- `queue.add` under the envelope's job id, `none` where it throws. -/
def LetterQueue.send {State : Type} (queue : LetterQueue State) (state : State)
    (envelope : DeadLetterEnvelope) : Option State :=
  if queue.refuses envelope.jobId then none else some (queue.add state envelope)

/-! ### A failed attempt -/

structure FailedJobFacts where
  id : Option JsString
  name : JsString
  data : JobData
  attemptsMade : Option ℚ

structure JobFailureInput where
  queue : QueueName
  maxAttempts : Option ℚ
  consequence : JsString
  job : Option FailedJobFacts
  error : Thrown
  unrecoverable : Bool
  traceId : Option JsString
  now : Int

inductive LogEvent where
  | jobRetrying
  | jobDeadLettered
  | jobDeadLetterWriteFailed
deriving DecidableEq

/-- What a failed attempt leads to: the decision, the letter that was sent, what is logged, and the
state of the dead-letter queue. -/
structure FailureOutcome (State : Type) where
  decision : DeadLetterDecision
  sent : Option DeadLetterEnvelope
  logged : LogEvent
  state : State

/-- The letter of a failed attempt. -/
def failureEnvelope (input : JobFailureInput) (reason : DeadLetterReason) : DeadLetterEnvelope :=
  deadLetterEnvelope
    { queue := input.queue
      jobId := input.job.bind FailedJobFacts.id
      jobName := input.job.elim (js "unknown") FailedJobFacts.name
      data := input.job.bind FailedJobFacts.data
      attemptsMade := input.job.elim (some 0) FailedJobFacts.attemptsMade
      reason := reason
      failureClass := classifyFailure input.error
      error := input.error
      consequence := input.consequence
      traceId := input.traceId
      now := input.now }

section Failure

variable {State : Type} (queue : LetterQueue State)

def handleJobFailure (state : State) (input : JobFailureInput) : FailureOutcome State :=
  let decision := deadLetterDecision
    ⟨input.queue, input.job.bind FailedJobFacts.attemptsMade, input.maxAttempts, input.unrecoverable⟩
  match decision with
  | .retry _ _ => ⟨decision, none, .jobRetrying, state⟩
  | .deadLetter reason _ =>
      let envelope := failureEnvelope input reason
      match queue.send state envelope with
      | some after => ⟨decision, some envelope, .jobDeadLettered, after⟩
      | none => ⟨decision, some envelope, .jobDeadLetterWriteFailed, state⟩

/-- One failure after another. -/
def handleFailures (state : State) : List JobFailureInput → State
  | [] => state
  | input :: rest => handleFailures (handleJobFailure queue state input).state rest

/-- The failed attempt was the last. -/
def FailureOutcome.isDead (outcome : FailureOutcome State) : Bool :=
  match outcome.decision with
  | .deadLetter _ _ => true
  | .retry _ _ => false

/-- The letter goes out under an id without a colon, and the queue then holds one of that id. -/
def FailureOutcome.Kept (outcome : FailureOutcome State) : Prop :=
  ∃ letter, outcome.sent = some letter ∧ unit ':' ∉ letter.jobId ∧
    outcome.logged = .jobDeadLettered ∧ letter.jobId ∈ queue.jobIds outcome.state

instance (outcome : FailureOutcome State) : Decidable (outcome.Kept queue) :=
  match sent : outcome.sent with
  | none => .isFalse fun ⟨_, found, _⟩ => by rw [sent] at found; cases found
  | some letter =>
      decidable_of_iff (unit ':' ∉ letter.jobId ∧ outcome.logged = .jobDeadLettered ∧
          letter.jobId ∈ queue.jobIds outcome.state)
        ⟨fun kept => ⟨letter, sent, kept⟩, fun ⟨_, found, kept⟩ => by
          rw [sent] at found
          cases found
          exact kept⟩

end Failure

/-! ### The id of a letter -/

theorem colon_mem_toISOString (now : Int) : unit ':' ∈ toISOString now := by
  unfold toISOString
  simp [js, unit]

/-- The id a letter goes out under has no colon exactly when the job is there with such an id. -/
theorem failureEnvelope_colon (input : JobFailureInput) (reason : DeadLetterReason) :
    unit ':' ∉ (failureEnvelope input reason).jobId ↔
      ∃ job, input.job = some job ∧ ∃ id, job.id = some id ∧ unit ':' ∉ id := by
  unfold failureEnvelope deadLetterEnvelope
  simp only
  cases there : input.job.bind FailedJobFacts.id with
  | none =>
      rw [Option.getD_none]
      constructor
      · intro clean
        exact absurd (List.mem_append_right _ (colon_mem_toISOString input.now)) clean
      · rintro ⟨job, found, id, named, _⟩
        rw [found, Option.bind_some, named] at there
        cases there
  | some id =>
      rw [Option.getD_some]
      obtain ⟨job, found, named⟩ := Option.bind_eq_some_iff.mp there
      constructor
      · intro clean
        exact ⟨job, found, id, named, clean⟩
      · rintro ⟨other, alsoFound, id', alsoNamed, clean⟩
        cases found.symm.trans alsoFound
        cases named.symm.trans alsoNamed
        exact clean

/-- A letter keeps the id of its job. -/
theorem failureEnvelope_jobId {input : JobFailureInput} (reason : DeadLetterReason)
    {job : FailedJobFacts} {id : JsString} (there : input.job = some job)
    (named : job.id = some id) : (failureEnvelope input reason).jobId = id := by
  simp only [failureEnvelope, deadLetterEnvelope, there, Option.bind_some, named, Option.getD_some]

/-- The id made from the time has more colons than any id the queue takes. -/
private theorem colons_toISOString (now : Int) :
    2 < (js "unknown:" ++ toISOString now).count (unit ':') := by
  have prefixed : (js "unknown:").count (unit ':') = 1 := by decide
  have colon : (js ":").count (unit ':') = 1 := by decide
  unfold toISOString
  simp only [List.count_append]
  omega

/-! ### What the queue is left with -/

section Kept

variable {State : Type} {queue : LetterQueue State} {state : State} {input : JobFailureInput}

/-- The letter that is sent is that of the failure. -/
private theorem sent_eq {letter : DeadLetterEnvelope}
    (sent : (handleJobFailure queue state input).sent = some letter) :
    ∃ reason, letter = failureEnvelope input reason := by
  unfold handleJobFailure at sent
  generalize deadLetterDecision
    ⟨input.queue, input.job.bind FailedJobFacts.attemptsMade, input.maxAttempts,
      input.unrecoverable⟩ = decision at sent
  cases decision with
  | retry next remaining => cases sent
  | deadLetter reason name =>
      refine ⟨reason, ?_⟩
      simp only at sent
      split at sent
      · exact (Option.some.inj sent).symm
      · exact (Option.some.inj sent).symm

private theorem kept_iff (documented : queue.Documented)
    (dead : (handleJobFailure queue state input).isDead = true) :
    (handleJobFailure queue state input).Kept queue ↔
      ∃ job, input.job = some job ∧ ∃ id, job.id = some id ∧ unit ':' ∉ id ∧
        queue.refuses id = false := by
  have source : ∀ reason, (unit ':' ∉ (failureEnvelope input reason).jobId ∧
      queue.refuses (failureEnvelope input reason).jobId = false) ↔
        ∃ job, input.job = some job ∧ ∃ id, job.id = some id ∧ unit ':' ∉ id ∧
          queue.refuses id = false := by
    intro reason
    constructor
    · intro ⟨clean, taken⟩
      obtain ⟨job, there, id, named, apart⟩ := (failureEnvelope_colon input reason).mp clean
      refine ⟨job, there, id, named, apart, ?_⟩
      rwa [failureEnvelope_jobId reason there named] at taken
    · rintro ⟨job, there, id, named, apart, taken⟩
      rw [failureEnvelope_jobId reason there named]
      exact ⟨apart, taken⟩
  unfold handleJobFailure at dead ⊢
  generalize deadLetterDecision
    ⟨input.queue, input.job.bind FailedJobFacts.attemptsMade, input.maxAttempts,
      input.unrecoverable⟩ = decision at dead ⊢
  cases decision with
  | retry next remaining => cases dead
  | deadLetter reason name =>
      rw [← source reason]
      simp only [LetterQueue.send]
      cases refused : queue.refuses (failureEnvelope input reason).jobId with
      | false =>
          constructor
          · rintro ⟨letter, sent, clean, _, _⟩
            cases sent
            exact ⟨clean, rfl⟩
          · intro ⟨clean, _⟩
            exact ⟨_, rfl, clean, rfl, documented.held state _ refused⟩
      | true =>
          apply iff_of_false
          · rintro ⟨letter, _, _, logged, _⟩
            cases logged
          · intro ⟨_, taken⟩
            cases taken

/-- A job that used its last attempt is kept exactly when it is there with an id that has no colon
and that the queue takes. -/
theorem dead_letter_kept_iff (documented : queue.Documented)
    (dead : (handleJobFailure queue state input).isDead = true) :
    (handleJobFailure queue state input).Kept queue ↔
      ∃ job, input.job = some job ∧ ∃ id, job.id = some id ∧ unit ':' ∉ id ∧
        queue.refuses id = false :=
  kept_iff documented dead

/-- A job that was added under its business key is kept, where the queue takes the key. -/
theorem business_job_kept (documented : queue.Documented) {job : FailedJobFacts}
    {key jobId : JsString} (there : input.job = some job) (named : job.id = some jobId)
    (made : toJobId key = .ok jobId) (taken : queue.refuses jobId = false)
    (dead : (handleJobFailure queue state input).isDead = true) :
    (handleJobFailure queue state input).Kept queue :=
  (kept_iff documented dead).mpr ⟨job, there, jobId, named, toJobId_colon made, taken⟩

/-- A job or an id that is missing leaves a line in the log alone. -/
theorem missing_job_refused (documented : queue.Documented)
    (missing : input.job.bind FailedJobFacts.id = none)
    (dead : (handleJobFailure queue state input).isDead = true) :
    (handleJobFailure queue state input).logged = .jobDeadLetterWriteFailed ∧
      (handleJobFailure queue state input).state = state := by
  unfold handleJobFailure at dead ⊢
  generalize deadLetterDecision
    ⟨input.queue, input.job.bind FailedJobFacts.attemptsMade, input.maxAttempts,
      input.unrecoverable⟩ = decision at dead ⊢
  cases decision with
  | retry next remaining => cases dead
  | deadLetter reason name =>
      have made : (failureEnvelope input reason).jobId =
          js "unknown:" ++ toISOString input.now := by
        simp only [failureEnvelope, deadLetterEnvelope, missing, Option.getD_none]
      have many := colons_toISOString input.now
      have refused : queue.refuses (failureEnvelope input reason).jobId = true := by
        rw [made]
        exact documented.colon _ (List.count_pos_iff.mp (by omega)) (by omega)
      simp [LetterQueue.send, refused]

/-! ### Over the failures that follow -/

private theorem jobIds_step (documented : queue.Documented) {jobId : JsString}
    (there : jobId ∈ queue.jobIds state) :
    jobId ∈ queue.jobIds (handleJobFailure queue state input).state := by
  unfold handleJobFailure
  generalize deadLetterDecision
    ⟨input.queue, input.job.bind FailedJobFacts.attemptsMade, input.maxAttempts,
      input.unrecoverable⟩ = decision
  cases decision with
  | retry next remaining => exact there
  | deadLetter reason name =>
      simp only [LetterQueue.send]
      cases queue.refuses (failureEnvelope input reason).jobId with
      | false => exact documented.kept state _ jobId there
      | true => exact there

private theorem jobIds_run (documented : queue.Documented) {jobId : JsString}
    (there : jobId ∈ queue.jobIds state) (inputs : List JobFailureInput) :
    jobId ∈ queue.jobIds (handleFailures queue state inputs) := by
  induction inputs generalizing state with
  | nil => exact there
  | cons input rest inductionHypothesis =>
      exact inductionHypothesis (jobIds_step documented there)

/-- In every run of failures, a job that used its last attempt and is there with an id the queue
takes is in the queue at the end. -/
theorem dead_letters_kept_run (documented : queue.Documented) {before after : List JobFailureInput}
    {job : FailedJobFacts} {id : JsString} (there : input.job = some job) (named : job.id = some id)
    (clean : unit ':' ∉ id) (taken : queue.refuses id = false)
    (dead : (handleJobFailure queue (handleFailures queue state before) input).isDead = true) :
    id ∈ queue.jobIds (handleFailures queue state (before ++ input :: after)) := by
  have split : handleFailures queue state (before ++ input :: after) =
      handleFailures queue
        (handleJobFailure queue (handleFailures queue state before) input).state after := by
    clear dead
    induction before generalizing state with
    | nil => rfl
    | cons first rest inductionHypothesis => exact inductionHypothesis
  rw [split]
  refine jobIds_run documented ?_ after
  obtain ⟨letter, sent, _, _, held⟩ :=
    (kept_iff documented dead).mpr ⟨job, there, id, named, clean, taken⟩
  have same : letter.jobId = id := by
    obtain ⟨reason, envelope⟩ := sent_eq sent
    rw [envelope, failureEnvelope_jobId reason there named]
  rwa [same] at held

end Kept

/-- A failed grading job under its business key. -/
private def failedGrading (job : Option FailedJobFacts) : JobFailureInput where
  queue := .gradingSubmit
  maxAttempts := some 3
  consequence := js "under_review"
  job := job
  error := .string (js "boom")
  unrecoverable := false
  traceId := none
  now := 1789552800000

/-- A queue that refuses colons and digits alone, for runs on fixed inputs. -/
private def sampleQueue : LetterQueue (List DeadLetterEnvelope) where
  refuses jobId := (jobId.contains (unit ':') && jobId.count (unit ':') != 2) || jobId.all isDigit
  letters state := state
  add state letter :=
    if state.any fun other => other.jobId == letter.jobId then state else state ++ [letter]

private theorem sampleQueue_documented : sampleQueue.Documented where
  colon jobId inside several := by
    simp [sampleQueue, inside, several]
  held state letter _ := by
    simp only [LetterQueue.jobIds, sampleQueue]
    split
    · rename_i already
      obtain ⟨other, member, same⟩ := List.any_eq_true.mp already
      exact List.mem_map.mpr ⟨other, member, beq_iff_eq.mp same⟩
    · rw [List.map_append]
      exact List.mem_append_right _ (List.mem_singleton_self _)
  kept state letter jobId there := by
    simp only [LetterQueue.jobIds, sampleQueue] at there ⊢
    split
    · exact there
    · rw [List.map_append]
      exact List.mem_append_left _ there

theorem dead_letter_kept_example :
    (handleJobFailure sampleQueue []
      (failedGrading (some ⟨some (js "grade%3A1"), js "grade", none, some 3⟩))).Kept sampleQueue :=
  (dead_letter_kept_iff sampleQueue_documented (by decide +kernel)).mpr
    ⟨_, rfl, _, rfl, by decide +kernel, by decide +kernel⟩

/-- A job that is gone when its failure is handled is lost: its letter is refused. So is that of a job
under a number the queue gave it. -/
theorem missing_job_lost :
    (¬ ∀ (State : Type) (queue : LetterQueue State) (state : State) (input : JobFailureInput),
      queue.Documented → (handleJobFailure queue state input).isDead = true →
        (handleJobFailure queue state input).Kept queue) ∧
      ¬ (handleJobFailure sampleQueue []
        (failedGrading (some ⟨some (js "17"), js "grade", none, some 3⟩))).Kept sampleQueue := by
  refine ⟨fun always => ?_, by decide +kernel⟩
  have kept := always _ sampleQueue [] (failedGrading none) sampleQueue_documented
    (by decide +kernel)
  revert kept
  decide +kernel

end Assaybank.Jobs.DeadLetter
