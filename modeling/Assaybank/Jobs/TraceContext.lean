import Assaybank.Contracts.QuestionInput
import Assaybank.Library.OrderedMap

/-!
Owns the queue hop of a trace (`apps/worker/src/trace-context.ts`) and the handlers the carrier
travels through: the dispatch of `apps/worker/src/index.ts` with the payload schemas of the jobs it
handles (`jobs/example.ts`, `jobs/scheduled.ts`, `jobs/bank-job.ts`).

Contract: a payload that carries a context is handled as the payload alone, except by the bank job,
whose schema knows no carrier (`injectTraceContext_inert_iff`).

It does not own what a job does with the payload it has read: that is a field of `Runs`, fixed for
one delivery.
-/

namespace Assaybank.Jobs

open Assaybank.Runtime Assaybank.Library Assaybank.Contracts

/-! ### The carrier -/

def OTEL_CARRIER_KEY : JsString := js "_otel"

/-- A carrier as it travels inside a payload: the two headers. -/
structure TraceCarrier where
  traceparent : JsString
  tracestate : Option JsString
deriving DecidableEq

def CarrierSchema : Schema TraceCarrier :=
  .looseObject
    (.both (.field (js "traceparent") (.string [minLength 1]))
      (.optional (js "tracestate") (.string [])))
    { toFun := fun (traceparent, tracestate) => ⟨traceparent, tracestate⟩
      invFun := fun c => (c.traceparent, c.tracestate)
      left_inv := fun _ => rfl
      right_inv := fun _ => rfl }

def CarrierEnvelopeSchema : Schema TraceCarrier :=
  .looseObject (.field OTEL_CARRIER_KEY CarrierSchema) (Equiv.refl TraceCarrier)

/-- The own members of an object, as a spread copies them. -/
def spread : Value → List (JsString × Value)
  | .object members => members
  | .array items => items.zipIdx.map fun item => (js (toString item.2), item.1)
  | _ => []

/-- Adds the context the propagator wrote into an empty carrier to a payload. -/
def injectTraceContext (carrier : List (JsString × JsString)) (payload : Value) : Value :=
  match CarrierSchema.safeParse (.object (carrier.map fun header => (header.1, .string header.2))) with
  | none => payload
  | some parsed => .object (setEntry (spread payload) OTEL_CARRIER_KEY (CarrierSchema.encode parsed))

/-- The carrier of a payload, if it holds one that can be read. -/
def extractTraceContext (payload : Value) : Option TraceCarrier :=
  CarrierEnvelopeSchema.safeParse payload

/-! ### The handlers -/

/-- The two queues the worker consumes. -/
inductive ConsumedQueue where
  | bankJobs
  | maintenanceCron
deriving DecidableEq

def EXAMPLE_JOB_NAME : JsString := js "example.noop"

def BANK_JOB_NAME : JsString := js "bank.job"

inductive ScheduledJobName where
  | deadlineSweep
  | questionStats
  | retentionErasure
  | webhookReaper
  | proctorMediaDeletion
  | partitionRoll
deriving DecidableEq

def ScheduledJobName.name : ScheduledJobName → String
  | .deadlineSweep => "deadline-sweep"
  | .questionStats => "question-stats"
  | .retentionErasure => "retention-erasure"
  | .webhookReaper => "webhook-reaper"
  | .proctorMediaDeletion => "proctor-media-deletion"
  | .partitionRoll => "partition-roll"

def SCHEDULED_JOB_NAMES : List ScheduledJobName :=
  [.deadlineSweep, .questionStats, .retentionErasure, .webhookReaper, .proctorMediaDeletion,
    .partitionRoll]

/-- `z.iso.datetime` with an offset, of the validator's own formats. -/
def ExampleJobPayloadSchema (isDateTime : JsString → Bool) : Schema JsString :=
  .looseObject
    (.field (js "tick") (.string [⟨isDateTime, .invalidFormat (js "Invalid ISO datetime")⟩]))
    (Equiv.refl JsString)

structure BankJobPayload where
  bankJobId : Uuid
  orgId : Uuid
deriving DecidableEq

def BankJobPayloadSchema : Schema BankJobPayload :=
  .strictObject
    (.both (.field (js "bank_job_id") UuidSchema) (.field (js "org_id") UuidSchema))
    { toFun := fun (bankJobId, orgId) => ⟨bankJobId, orgId⟩
      invFun := fun p => (p.bankJobId, p.orgId)
      left_inv := fun _ => rfl
      right_inv := fun _ => rfl }

/-- What each job does with what it read of its payload, on one delivery: the world it runs in, the
attempt and the tick of the job are those of the delivery. -/
structure Runs (ω : Type) where
  runExampleJob : JsString → ω
  runScheduledJob : ScheduledJobName → ω
  runBankJob : BankJobPayload → ω

/-- Why a job is not run. -/
inductive Refusal where
  | unrecoverable (message : JsString)
  | invalid (issues : List Issue)
deriving DecidableEq

variable {ω : Type}

/-- A handler that parses its payload at the edge, as the throwing parse does. -/
def parsing {α : Type} (schema : Schema α) (run : α → ω) (data : Value) : Except Refusal ω :=
  match schema.parse data with
  | ⟨some a, []⟩ => .ok (run a)
  | ⟨_, issues⟩ => .error (.invalid issues)

/-- The handler of `maintenance.cron`. A sweep reads nothing of its payload. -/
def maintenanceHandler (isDateTime : JsString → Bool) (runs : Runs ω) (name : JsString)
    (data : Value) : Except Refusal ω :=
  if name = EXAMPLE_JOB_NAME then
    parsing (ExampleJobPayloadSchema isDateTime) runs.runExampleJob data
  else
    match SCHEDULED_JOB_NAMES.find? fun job => js job.name == name with
    | some job => .ok (runs.runScheduledJob job)
    | none =>
        .error (.unrecoverable (js "no handler for job \"" ++ name ++
          js "\" on maintenance.cron; it was dead-lettered unretried"))

/-- The handler of `bank.jobs`. -/
def bankHandler (runs : Runs ω) (name : JsString) (data : Value) : Except Refusal ω :=
  if name = BANK_JOB_NAME then parsing BankJobPayloadSchema runs.runBankJob data
  else
    .error (.unrecoverable (js "no handler for job \"" ++ name ++
      js "\" on bank.jobs; it was dead-lettered unretried"))

/-- What the worker does with a job of either queue. -/
def handleJob (isDateTime : JsString → Bool) (runs : Runs ω) :
    ConsumedQueue → JsString → Value → Except Refusal ω
  | .maintenanceCron => maintenanceHandler isDateTime runs
  | .bankJobs => bankHandler runs

/-! ### What the carrier changes of a payload -/

private theorem member?_eq_lookup (members : List (JsString × Value)) (name : JsString) :
    member? members name = members.lookup name := by
  unfold member?
  induction members with
  | nil => rfl
  | cons member rest inductionHypothesis =>
      rw [lookup_entry]
      by_cases here : name = member.1
      · rw [if_pos here, List.find?_cons_of_pos (by simp [here])]
        rfl
      · rw [if_neg here, List.find?_cons_of_neg (by simpa using fun same => here same.symm)]
        exact inductionHypothesis

/-- Setting a member leaves the others as they are. -/
private theorem member?_setEntry (members : List (JsString × Value)) (name other : JsString)
    (value : Value) : member? (setEntry members name value) other =
      if other = name then some value else member? members other := by
  rw [member?_eq_lookup, member?_eq_lookup, lookup_setEntry]

theorem parsing_eq_ok {α : Type} {schema : Schema α} {run : α → ω} {data : Value} {outcome : ω} :
    parsing schema run data = .ok outcome ↔ ∃ a, schema.parse data = .accepted a ∧ run a = outcome := by
  unfold parsing
  rcases schema.parse data with ⟨_ | b, _ | ⟨issue, issues⟩⟩ <;> simp [Parsed.accepted]

/-- The headers a propagator wrote, as the object they are read from. -/
private theorem member?_headers (carrier : List (JsString × JsString)) (name : JsString) :
    member? (carrier.map fun header => (header.1, Value.string header.2)) name =
      (carrier.lookup name).map .string := by
  rw [member?_eq_lookup]
  induction carrier with
  | nil => rfl
  | cons header rest inductionHypothesis =>
      rw [List.map_cons, lookup_entry, lookup_entry, inductionHypothesis]
      by_cases here : name = header.1
      · rw [if_pos here, if_pos here]
        rfl
      · rw [if_neg here, if_neg here]

private theorem parse_nonEmpty {text read : JsString} :
    (Schema.string [minLength 1]).parse (.string text) = .accepted read ↔
      text = read ∧ read ≠ [] := by
  simp only [Schema.string, Schema.scalar, Parsed.accepted, Parsed.mk.injEq, Option.some.injEq,
    runChecks_eq_nil, List.mem_singleton, forall_eq, minLength, decide_eq_true_eq]
  constructor
  · rintro ⟨rfl, long⟩
    exact ⟨rfl, List.ne_nil_of_length_pos long⟩
  · rintro ⟨rfl, nonEmpty⟩
    exact ⟨rfl, List.length_pos_of_ne_nil nonEmpty⟩

/-- Headers without a `traceparent`, or with an empty one, are no carrier. -/
private theorem carrier_parse_iff (carrier : List (JsString × JsString)) (c : TraceCarrier) :
    CarrierSchema.parse (.object (carrier.map fun header => (header.1, .string header.2))) =
        .accepted c ↔
      carrier.lookup (js "traceparent") = some c.traceparent ∧ c.traceparent ≠ [] ∧
        carrier.lookup (js "tracestate") = c.tracestate := by
  rcases c with ⟨traceparent, tracestate⟩
  have parts : CarrierSchema.parse
        (.object (carrier.map fun header => (header.1, .string header.2))) =
        .accepted ⟨traceparent, tracestate⟩ ↔
      (Fields.field (js "traceparent") (.string [minLength 1])).parse
          (fun name => (carrier.lookup name).map .string) = .accepted traceparent ∧
        (Fields.optional (js "tracestate") (.string [])).parse
          (fun name => (carrier.lookup name).map .string) = .accepted tracestate := by
    simp only [CarrierSchema, Schema.looseObject, Fields.both, Parsed.map_eq_accepted,
      Parsed.both_eq_accepted, funext (member?_headers carrier)]
    constructor
    · rintro ⟨pair, read, same⟩
      cases same
      exact read
    · intro read
      exact ⟨(traceparent, tracestate), read, rfl⟩
  rw [parts, and_assoc.symm]
  apply and_congr
  · simp only [Fields.field]
    cases carrier.lookup (js "traceparent") with
    | none => simp [Parsed.within, Parsed.refused, Parsed.accepted]
    | some text =>
        simp only [Option.map_some, Parsed.within_eq_accepted, parse_nonEmpty, Option.some.injEq]
  · simp only [Fields.optional]
    cases carrier.lookup (js "tracestate") with
    | none => simp [Parsed.accepted]
    | some text =>
        simp [Parsed.map, Parsed.within, Schema.string, Schema.scalar, runChecks, Parsed.accepted]

/-- The propagator wrote a context into the carrier. -/
def WroteContext (carrier : List (JsString × JsString)) : Prop :=
  ∃ traceparent, carrier.lookup (js "traceparent") = some traceparent ∧ traceparent ≠ []

theorem injectTraceContext_of_context {carrier : List (JsString × JsString)}
    (wrote : WroteContext carrier) (payload : Value) :
    ∃ c : TraceCarrier, injectTraceContext carrier payload =
      .object (setEntry (spread payload) OTEL_CARRIER_KEY (CarrierSchema.encode c)) := by
  obtain ⟨traceparent, found, nonEmpty⟩ := wrote
  have parsed := (carrier_parse_iff carrier ⟨traceparent, carrier.lookup (js "tracestate")⟩).mpr
    ⟨found, nonEmpty, rfl⟩
  refine ⟨⟨traceparent, carrier.lookup (js "tracestate")⟩, ?_⟩
  rw [injectTraceContext, Schema.safeParse_eq_some.mpr parsed]

theorem injectTraceContext_of_no_context {carrier : List (JsString × JsString)}
    (silent : ¬ WroteContext carrier) (payload : Value) :
    injectTraceContext carrier payload = payload := by
  unfold injectTraceContext
  split
  · rfl
  · rename_i c parsed
    obtain ⟨found, nonEmpty, _⟩ := (carrier_parse_iff carrier c).mp (Schema.safeParse_eq_some.mp parsed)
    exact absurd ⟨c.traceparent, found, nonEmpty⟩ silent

/-- The consumer finds the carrier the producer wrote. -/
theorem extract_inject {carrier : List (JsString × JsString)} (wrote : WroteContext carrier)
    (payload : Value) : ∃ c : TraceCarrier,
      extractTraceContext (injectTraceContext carrier payload) = some c ∧
        carrier.lookup (js "traceparent") = some c.traceparent ∧
        carrier.lookup (js "tracestate") = c.tracestate := by
  obtain ⟨traceparent, found, nonEmpty⟩ := wrote
  have parsed := (carrier_parse_iff carrier ⟨traceparent, carrier.lookup (js "tracestate")⟩).mpr
    ⟨found, nonEmpty, rfl⟩
  refine ⟨⟨traceparent, carrier.lookup (js "tracestate")⟩, ?_, found, rfl⟩
  rw [injectTraceContext, Schema.safeParse_eq_some.mpr parsed, extractTraceContext, Schema.safeParse_eq_some]
  refine Parsed.map_eq_accepted.mpr ⟨_, ?_, rfl⟩
  simp only [Fields.field, member?_setEntry, if_pos]
  exact Parsed.within_eq_accepted.mpr (CarrierSchema.stable parsed)

/-! ### What the handlers make of it -/

/-- The jobs of the maintenance queue pass over the carrier. -/
theorem maintenanceHandler_inject {isDateTime : JsString → Bool} {runs : Runs ω} {name : JsString}
    {payload : Value} {outcome : ω} (carrier : List (JsString × JsString))
    (handled : maintenanceHandler isDateTime runs name payload = .ok outcome) :
    maintenanceHandler isDateTime runs name (injectTraceContext carrier payload) = .ok outcome := by
  by_cases wrote : WroteContext carrier
  · obtain ⟨c, injected⟩ := injectTraceContext_of_context wrote payload
    rw [injected]
    unfold maintenanceHandler at handled ⊢
    by_cases isExample : name = EXAMPLE_JOB_NAME
    · rw [if_pos isExample] at handled ⊢
      obtain ⟨tick, read, ran⟩ := parsing_eq_ok.mp handled
      refine parsing_eq_ok.mpr ⟨tick, ?_, ran⟩
      cases payload with
      | object members =>
          rw [← read]
          apply Schema.looseObject_parse_congr
          intro key inside
          rw [List.mem_singleton.mp inside, spread, member?_setEntry, if_neg (by decide)]
      | _ => simp [ExampleJobPayloadSchema, Schema.looseObject, Parsed.refused, Parsed.accepted] at read
    · rw [if_neg isExample] at handled ⊢
      exact handled
  · rw [injectTraceContext_of_no_context wrote]
    exact handled

/-- The bank job refuses any payload with a carrier. -/
theorem bankHandler_inject {runs : Runs ω} {name : JsString} {carrier : List (JsString × JsString)}
    (wrote : WroteContext carrier) (payload : Value) (outcome : ω) :
    bankHandler runs name (injectTraceContext carrier payload) ≠ .ok outcome := by
  intro handled
  obtain ⟨c, injected⟩ := injectTraceContext_of_context wrote payload
  rw [injected, bankHandler] at handled
  split at handled
  · obtain ⟨read, parsed, _⟩ := parsing_eq_ok.mp handled
    have unknown : OTEL_CARRIER_KEY ∉ [js "bank_job_id", js "org_id"] := by decide
    exact Schema.strictObject_unrecognized (mem_setEntry_self _ _ _) unknown read parsed
  · cases handled

/-- A job that is handled is handled alike with the context in its payload, unless it is a bank job
and there is a context. -/
theorem injectTraceContext_inert_iff (isDateTime : JsString → Bool) (runs : Runs ω)
    (queue : ConsumedQueue) (name : JsString) (payload : Value)
    (carrier : List (JsString × JsString)) {outcome : ω}
    (handled : handleJob isDateTime runs queue name payload = .ok outcome) :
    handleJob isDateTime runs queue name (injectTraceContext carrier payload) = .ok outcome ↔
      ¬ (queue = .bankJobs ∧ WroteContext carrier) := by
  cases queue with
  | maintenanceCron =>
      refine ⟨fun _ broken => absurd broken.1 (by decide), fun _ => ?_⟩
      exact maintenanceHandler_inject carrier handled
  | bankJobs =>
      by_cases wrote : WroteContext carrier
      · refine ⟨fun again => absurd again (bankHandler_inject wrote payload outcome), fun inert => ?_⟩
        exact absurd ⟨rfl, wrote⟩ inert
      · rw [injectTraceContext_of_no_context wrote]
        exact ⟨fun _ broken => wrote broken.2, fun _ => handled⟩

/-- The payload of a bank job, as the relay sends it. -/
def bankPayload : Value :=
  BankJobPayloadSchema.encode
    ⟨js "0b7f3c52-8d1e-4a53-9f0c-2f6d1f1f7a11", js "5f0d2f0e-6c4b-4a7e-8a39-0c5a1f2e3d44"⟩

/-- What a propagator writes under an active span. -/
def activeCarrier : List (JsString × JsString) :=
  [(js "traceparent", js "00-0af7651916cd43dd8448eb211c80319c-b7ad6b7169203331-01")]

/-- Runs that answer which job ran. -/
def namedRuns : Runs JsString := ⟨fun _ => js "example", fun job => js job.name, fun _ => js "bank"⟩

private theorem bankPayload_handled :
    handleJob (fun _ => true) namedRuns .bankJobs BANK_JOB_NAME bankPayload = .ok (js "bank") := by
  decide +kernel

theorem injectTraceContext_inert_example :
    handleJob (fun _ => true) namedRuns .bankJobs BANK_JOB_NAME
        (injectTraceContext activeCarrier bankPayload) = .ok (js "bank") ↔
      ¬ (ConsumedQueue.bankJobs = .bankJobs ∧ WroteContext activeCarrier) :=
  injectTraceContext_inert_iff (fun _ => true) namedRuns .bankJobs BANK_JOB_NAME bankPayload
    activeCarrier bankPayload_handled

/-- A bank job is handled, and refused once tracing is on. -/
theorem injectTraceContext_breaks_bank_job :
    handleJob (fun _ => true) namedRuns .bankJobs BANK_JOB_NAME bankPayload = .ok (js "bank") ∧
      handleJob (fun _ => true) namedRuns .bankJobs BANK_JOB_NAME
          (injectTraceContext activeCarrier bankPayload) =
        .error (.invalid [⟨[], .unrecognizedKeys⟩]) := by
  refine ⟨bankPayload_handled, ?_⟩
  decide +kernel

end Assaybank.Jobs
