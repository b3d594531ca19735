import Assaybank.Interchange.BankItem

/-!
Owns one bank job as its row and its runners see it: the updates of the row
(`packages/db/src/bank-jobs.ts`), and the transactions one delivery runs in order
(`apps/worker/src/jobs/bank-job.ts` and `bank-transfer.ts`).

Contract: `Phase.step` is one transaction of one delivery, with the code between two
transactions run along with the first of them. A delivery that crashes is one that takes no
further step; two deliveries overlap when their steps interleave on one world.

It does not own the readers or the writing of a question. What a file reads as, whether an
item can be written and which skill keys are visible are fields of `Services`, fixed for
the life of a job.
-/

namespace Assaybank.Jobs

open Assaybank.Runtime Assaybank.Library Assaybank.Interchange

inductive BankJobKind where
  | import
  | export
deriving DecidableEq

inductive BankJobFormat where
  | json
  | qti
  | humaneval
  | mbpp
  | lbpp
  | exercism
deriving DecidableEq

inductive BankJobStatus where
  | queued
  | dispatched
  | running
  | succeeded
  | failed
deriving DecidableEq

/-- A status a delivery may start from; the other two are final. -/
def BankJobStatus.isOpen : BankJobStatus → Bool
  | .queued => true
  | .dispatched => true
  | .running => true
  | .succeeded => false
  | .failed => false

abbrev Bytes := List UInt8

structure JobResult where
  bytes : Bytes
  contentType : JsString
  expiresAt : Nat
deriving DecidableEq

structure BankJobRow where
  kind : BankJobKind
  format : BankJobFormat
  status : BankJobStatus
  /-- What the API wrote, parsed again by the worker. -/
  options : Value
  input : Option Bytes
  result : Option JobResult
  nextIndex : Nat
  createdCount : Nat
  skippedCount : Nat
  problems : List ItemProblem
  problemsTruncated : Bool
  failure : Option JsString
  startedAt : Option Nat
  finishedAt : Option Nat

/-- The largest file either direction may carry. -/
def MAX_BANK_JOB_BYTES : Nat := 32 * 1024 * 1024

/-- At most this many problems are kept on a row; the rest are counted, not stored. -/
def MAX_STORED_PROBLEMS : Nat := 1000

/-- An export's file is downloadable for this long, then gone. -/
def EXPORT_RETENTION_MS : Nat := 7 * 24 * 60 * 60 * 1000

/-! ### Updates of the row -/

/-- Moves a dispatched or re-delivered job to running. `none` when it has already finished. -/
def startBankJob (row : BankJobRow) (now : Nat) : Option BankJobRow :=
  if row.status.isOpen then
    some { row with status := .running, startedAt := row.startedAt.or (some now) }
  else none

/-- Appends problems, keeping at most `MAX_STORED_PROBLEMS`. -/
def appendProblems (row : BankJobRow) (problems : List ItemProblem) : BankJobRow :=
  { row with
    problems :=
      if MAX_STORED_PROBLEMS ≤ row.problems.length then row.problems
      else (row.problems ++ problems).take MAX_STORED_PROBLEMS
    problemsTruncated :=
      row.problemsTruncated ||
        decide (MAX_STORED_PROBLEMS < row.problems.length + problems.length) }

/-- The distinct indices a list of problems is about. -/
def problemIndices (problems : List ItemProblem) : List Nat :=
  (problems.map ItemProblem.index).dedup

/-- Records file-level parse problems once, when an import first starts. -/
def recordParseProblems (row : BankJobRow) (problems : List ItemProblem) : BankJobRow :=
  if problems = [] then row
  else
    { appendProblems row problems with
      skippedCount := row.skippedCount + (problemIndices problems).length }

/-- Advances the checkpoint past one item. -/
def advanceImport (row : BankJobRow) (nextIndex : Nat) (created : Bool)
    (problems : List ItemProblem) : BankJobRow :=
  let advanced :=
    { row with
      nextIndex := nextIndex
      createdCount := row.createdCount + if created then 1 else 0
      skippedCount := row.skippedCount + if created then 0 else 1 }
  if problems = [] then advanced else appendProblems advanced problems

/-- Finishes a job successfully, clearing the uploaded file and storing an export's result. -/
def finishBankJob (row : BankJobRow) (now : Nat) (result : Option JobResult) : BankJobRow :=
  { row with status := .succeeded, finishedAt := some now, input := none, result := result }

/-- Fails a job with a message fit for an operator, clearing the uploaded file. -/
def failBankJob (row : BankJobRow) (now : Nat) (failure : JsString) : BankJobRow :=
  { row with
    status := .failed, finishedAt := some now, input := none, failure := some (failure.take 2000) }

/-! ### What a delivery calls -/

structure ImportOptions where
  sourceLicense : JsString
  defaultSkillIds : List JsString
  defaultDifficulty : Option Int
deriving DecidableEq

structure ExportOptions where
  status : Option Contracts.QuestionStatus
  skillId : Option JsString

/-- One item of a file, with its position in the file. -/
structure Entry where
  index : Nat
  item : BankItem
deriving DecidableEq

structure ReadResult where
  items : List Entry
  problems : List ItemProblem

/-- What reading a file gives: its items, a message for the person who uploaded it, or an
error nobody expected. -/
inductive ReadOutcome where
  | read (result : ReadResult)
  | unreadable (message : JsString)
  | unexpected

/-- What a delivery calls on, fixed while the job runs. -/
structure Services where
  importOptions : Value → Option ImportOptions
  exportOptions : Value → Option ExportOptions
  readFile : BankJobFormat → Bytes → Option Int → ReadOutcome
  /-- `JSON.stringify` of a string. -/
  stringify : JsString → JsString
  /-- Whether the importing organisation sees a skill of this key. -/
  isVisible : JsString → Bool
  /-- Whether the database takes everything an item writes. -/
  canWrite : ImportOptions → BankItem → Bool
  /-- Whether the problems column takes these problems. -/
  canStore : List ItemProblem → Bool

/-- The refusal of one item, or `none` when its transaction commits. -/
def importOne (services : Services) (options : ImportOptions) (entry : Entry) :
    Option ItemProblem :=
  let unknown := (entry.item.skills.map BankSkill.key).filter fun key => !services.isVisible key
  if unknown ≠ [] then
    some ⟨entry.index, some entry.item.ref, [.key (js "skills")], .custom
      (js "no skill with key " ++ joinWith (js ", ") (unknown.map services.stringify) ++
        js " in this organisation; create or merge it, then import again")⟩
  else if services.canWrite options entry.item then none
  else
    some ⟨entry.index, some entry.item.ref, [], .custom
      (js "the item could not be written; nothing from it was saved")⟩

/-! ### One delivery -/

/-- A question the job created, with the position in the worker's item list it comes from. -/
structure CreatedQuestion where
  position : Nat
  item : BankItem
  options : ImportOptions
deriving DecidableEq

/-- What the job's transactions read and write. -/
structure World where
  row : BankJobRow
  created : List CreatedQuestion

/-- Where a delivery stands: the transaction it runs next, with what it holds in memory. -/
inductive Phase where
  | ready
  | failing (message : JsString)
  | reading (job : BankJobRow) (options : ImportOptions)
  | recording (job : BankJobRow) (options : ImportOptions) (read : ReadResult)
  | importing (options : ImportOptions) (items : List Entry) (position : Nat)
  | refusing (options : ImportOptions) (items : List Entry) (position : Nat)
      (problem : ItemProblem)
  | exporting (job : BankJobRow) (options : ExportOptions)
  | storing (result : JobResult) (now : Nat)
  | done

/-- The clock and the exported file one transaction sees, and whether the delivery is the last. -/
structure Call where
  now : Nat
  exported : Bytes
  finalAttempt : Bool

/-- After an unexpected error: the last delivery marks the row failed, any other leaves it. -/
def afterThrow (call : Call) : Phase :=
  if call.finalAttempt then
    .failing (js
      "The job stopped unexpectedly. Items already imported are kept; see the problems list.")
  else .done

def afterStart (services : Services) (job : BankJobRow) : Phase :=
  match job.kind with
  | .import =>
      match services.importOptions job.options with
      | none => .failing (js "The import options on this job are invalid.")
      | some options => .reading job options
  | .export =>
      match services.exportOptions job.options with
      | none => .failing (js "The export options on this job are invalid.")
      | some options => .exporting job options

/-- Whether the row a delivery started from shows no progress. -/
def firstRun (job : BankJobRow) : Bool :=
  job.nextIndex == 0 && job.createdCount == 0 && job.skippedCount == 0

def afterInput (services : Services) (call : Call) (job : BankJobRow) (options : ImportOptions) :
    Option Bytes → Phase
  | none => .failing (js "The uploaded file is no longer available; upload it again.")
  | some input =>
      match services.readFile job.format input options.defaultDifficulty with
      | .unreadable message => .failing message
      | .unexpected => afterThrow call
      | .read result =>
          if firstRun job && result.problems ≠ [] then .recording job options result
          else .importing options result.items job.nextIndex

def afterExport (call : Call) (job : BankJobRow) : Phase :=
  if MAX_BANK_JOB_BYTES < call.exported.length then
    .failing (js
      s!"The export is {call.exported.length} bytes, over the {MAX_BANK_JOB_BYTES}-byte limit; narrow it by status or skill.")
  else
    .storing
      { bytes := call.exported
        contentType := js (if job.format = .json then "application/json" else "application/zip")
        expiresAt := call.now + EXPORT_RETENTION_MS }
      call.now

/-- One transaction of a delivery, and the code up to its next one. -/
def Phase.step (services : Services) (call : Call) (world : World) : Phase → World × Phase
  | .ready =>
      match startBankJob world.row call.now with
      | none => (world, .done)
      | some job => ({ world with row := job }, afterStart services job)
  | .failing message => ({ world with row := failBankJob world.row call.now message }, .done)
  | .reading job options => (world, afterInput services call job options world.row.input)
  | .recording job options read =>
      if services.canStore read.problems then
        ({ world with row := recordParseProblems world.row read.problems },
          .importing options read.items job.nextIndex)
      else (world, afterThrow call)
  | .importing options items position =>
      match items[position]? with
      | none => ({ world with row := finishBankJob world.row call.now none }, .done)
      | some entry =>
          match importOne services options entry with
          | none =>
              ({ row := advanceImport world.row (position + 1) true []
                 created := world.created ++ [⟨position, entry.item, options⟩] },
                .importing options items (position + 1))
          -- The item's own transaction rolled back: nothing is written until the next one.
          | some problem => (world, .refusing options items position problem)
  | .refusing options items position problem =>
      if services.canStore [problem] then
        ({ world with row := advanceImport world.row (position + 1) false [problem] },
          .importing options items (position + 1))
      else (world, afterThrow call)
  | .exporting job _ => (world, afterExport call job)
  | .storing result now => ({ world with row := finishBankJob world.row now (some result) }, .done)
  | .done => (world, .done)

end Assaybank.Jobs
