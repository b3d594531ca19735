import Assaybank.Jobs.Overlap
import Mathlib.Data.List.Dedup

/-!
Owns the resumption of an import: whatever the transactions at which its deliveries crash,
a job that ends has ended as one uninterrupted delivery would have ended it.

`planned` says what the import of a file comes to, with no row, no delivery and no crash. The
invariant `InPhase` ties every state of a delivery to a point of that plan, so a delivery
that starts from a row left by another goes on from the point it stands at.
-/

namespace Assaybank.Jobs

open Assaybank.Runtime Assaybank.Library Assaybank.Interchange

/-! ### The plan -/

/-- How far an import has come: every problem that occurred, stored or not. -/
structure Progress where
  position : Nat
  created : List CreatedQuestion
  problems : List ItemProblem
  skipped : Nat

namespace Progress

def nothing : Progress := ⟨0, [], [], 0⟩

/-- The problems of the file itself are recorded. -/
def begin (read : ReadResult) : Progress :=
  ⟨0, [], read.problems, (problemIndices read.problems).length⟩

def create (progress : Progress) (options : ImportOptions) (item : BankItem) : Progress :=
  { progress with
    position := progress.position + 1
    created := progress.created ++ [⟨progress.position, item, options⟩] }

def refuse (progress : Progress) (problem : ItemProblem) : Progress :=
  { progress with
    position := progress.position + 1
    problems := progress.problems ++ [problem]
    skipped := progress.skipped + 1 }

end Progress

inductive Ending where
  | succeeded
  | failed (message : JsString)

/-- What the last delivery writes when something unexpected stopped it. -/
def STOPPED : JsString :=
  js "The job stopped unexpectedly. Items already imported are kept; see the problems list."

/-- Imports items in order from a point on, up to a refusal the problems column cannot hold. -/
def importAll (services : Services) (options : ImportOptions) :
    List Entry → Progress → Progress × Ending
  | [], progress => (progress, .succeeded)
  | entry :: rest, progress =>
      match importOne services options entry with
      | none => importAll services options rest (progress.create options entry.item)
      | some problem =>
          if services.canStore [problem] then
            importAll services options rest (progress.refuse problem)
          else (progress, .failed STOPPED)

/-- What an import is going to do: fail as a whole, or import what its file holds. -/
inductive Plan where
  | fails (message : JsString)
  | imports (options : ImportOptions) (read : ReadResult)

def planOf (services : Services) (row : BankJobRow) : Plan :=
  match services.importOptions row.options with
  | none => .fails (js "The import options on this job are invalid.")
  | some options =>
      match row.input with
      | none => .fails (js "The uploaded file is no longer available; upload it again.")
      | some input =>
          match services.readFile row.format input options.defaultDifficulty with
          | .unreadable message => .fails message
          | .unexpected => .fails STOPPED
          | .read result =>
              if result.problems ≠ [] ∧ services.canStore result.problems = false then
                .fails STOPPED
              else .imports options result

/-- Where a plan ends, and how. -/
def Plan.outcome (services : Services) : Plan → Progress × Ending
  | .fails message => (.nothing, .failed message)
  | .imports options read => importAll services options read.items (.begin read)

/-- What the import of a job comes to. -/
def planned (services : Services) (row : BankJobRow) : Progress × Ending :=
  (planOf services row).outcome services

/-! ### The row of a point of the plan -/

/-- A world that stands at a point of the plan. -/
structure StandsAt (world : World) (progress : Progress) : Prop where
  cursor : world.row.nextIndex = progress.position
  created : world.created = progress.created
  createdCount : world.row.createdCount = progress.created.length
  skippedCount : world.row.skippedCount = progress.skipped
  problems : world.row.problems = progress.problems.take MAX_STORED_PROBLEMS
  truncated : world.row.problemsTruncated =
    decide (MAX_STORED_PROBLEMS < progress.problems.length)

/-- The part of a row that says how a job ended. -/
def EndedAs (row : BankJobRow) : Ending → Prop
  | .succeeded => row.status = .succeeded ∧ row.failure = none
  | .failed message => row.status = .failed ∧ row.failure = some (message.take 2000)

/-- A job that is over, as the plan says. -/
structure Closed (world : World) (outcome : Progress × Ending) : Prop where
  stands : StandsAt world outcome.1
  ended : EndedAs world.row outcome.2

/-- A job that is not over, at a point of the plan for `row`. -/
structure Open (row : BankJobRow) (world : World) (progress : Progress) : Prop where
  stands : StandsAt world progress
  isOpen : world.row.status.isOpen = true
  kind : world.row.kind = .import
  options : world.row.options = row.options
  format : world.row.format = row.format
  input : world.row.input = row.input
  failure : world.row.failure = none

private theorem append_stored (all problems : List ItemProblem) :
    (if MAX_STORED_PROBLEMS ≤ (all.take MAX_STORED_PROBLEMS).length then
        all.take MAX_STORED_PROBLEMS
      else (all.take MAX_STORED_PROBLEMS ++ problems).take MAX_STORED_PROBLEMS) =
      (all ++ problems).take MAX_STORED_PROBLEMS := by
  generalize MAX_STORED_PROBLEMS = bound
  by_cases full : bound ≤ all.length
  · rw [if_pos (by rw [List.length_take]; omega), List.take_append_of_le_length full]
  · have whole : all.take bound = all := List.take_of_length_le (by omega)
    rw [if_neg (by rw [whole]; exact full), whole]

private theorem append_truncated (all problems : List ItemProblem) :
    (decide (MAX_STORED_PROBLEMS < all.length) ||
        decide (MAX_STORED_PROBLEMS <
          (all.take MAX_STORED_PROBLEMS).length + problems.length)) =
      decide (MAX_STORED_PROBLEMS < (all ++ problems).length) := by
  generalize MAX_STORED_PROBLEMS = bound
  rw [← Bool.decide_or, decide_eq_decide, List.length_append, List.length_take]
  omega

theorem standsAt_create {world : World} {progress : Progress} (stands : StandsAt world progress)
    (options : ImportOptions) (item : BankItem) :
    StandsAt
      ⟨advanceImport world.row (progress.position + 1) true [],
        world.created ++ [⟨progress.position, item, options⟩]⟩
      (progress.create options item) where
  cursor := rfl
  created := congrArg (· ++ _) stands.created
  createdCount := by
    show world.row.createdCount + 1 = (progress.created ++ [_]).length
    rw [stands.createdCount, List.length_append, List.length_singleton]
  skippedCount := stands.skippedCount
  problems := stands.problems
  truncated := stands.truncated

theorem standsAt_refuse {world : World} {progress : Progress} (stands : StandsAt world progress)
    (problem : ItemProblem) :
    StandsAt { world with row := advanceImport world.row (progress.position + 1) false [problem] }
      (progress.refuse problem) where
  cursor := by simp [Progress.refuse]
  created := stands.created
  createdCount := stands.createdCount
  skippedCount := congrArg (· + 1) stands.skippedCount
  problems := by
    rw [Progress.refuse, ← append_stored, ← stands.problems]
    rfl
  truncated := by
    rw [Progress.refuse, ← append_truncated, ← stands.problems, ← stands.truncated]
    rfl

theorem standsAt_begin {world : World} (stands : StandsAt world .nothing) {read : ReadResult}
    (some' : read.problems ≠ []) :
    StandsAt { world with row := recordParseProblems world.row read.problems } (.begin read) := by
  have recorded : recordParseProblems world.row read.problems =
      { appendProblems world.row read.problems with
        skippedCount := world.row.skippedCount + (problemIndices read.problems).length } := by
    rw [recordParseProblems, if_neg some']
  rw [recorded]
  constructor
  · exact stands.cursor
  · exact stands.created
  · exact stands.createdCount
  · show world.row.skippedCount + _ = _
    rw [stands.skippedCount]
    exact Nat.zero_add _
  · have stored := append_stored [] read.problems
    rw [List.take_nil, List.nil_append] at stored
    rw [Progress.begin, ← stored]
    show (if _ then world.row.problems else _) = _
    rw [stands.problems]
    rfl
  · have truncated := append_truncated [] read.problems
    rw [List.take_nil, List.nil_append] at truncated
    rw [Progress.begin, ← truncated]
    show (world.row.problemsTruncated || _) = _
    rw [stands.truncated, stands.problems]
    rfl

/-! ### The invariant of a delivery -/

section

variable (services : Services) (row : BankJobRow)

/-- A point of the import of a file after its own problems were recorded: importing the rest
from there comes to what the plan comes to. A first run cannot be mistaken for it. -/
structure Started (options : ImportOptions) (read : ReadResult) (progress : Progress) : Prop where
  recorded : read.problems = [] ∨ 0 < progress.position ∨ 0 < progress.skipped
  rest : importAll services options (read.items.drop progress.position) progress =
    importAll services options read.items (.begin read)

/-- A point of the plan. -/
def OnPlan (progress : Progress) : Prop :=
  progress = .nothing ∨
    ∃ options read, planOf services row = .imports options read ∧
      Started services options read progress

/-- A row as a delivery finds it. -/
def Steady (world : World) : Prop :=
  Closed world (planned services row) ∨
    ∃ progress, Open row world progress ∧ OnPlan services row progress

/-- What is known of a delivery before its next transaction. -/
def InPhase (world : World) : Phase → Prop
  | .ready => Steady services row world
  | .done => Steady services row world
  | .failing message =>
      ∃ progress, Open row world progress ∧ world.row.status = .running ∧
        OnPlan services row progress ∧ planned services row = (progress, .failed message)
  | .reading job options =>
      ∃ progress, Open row world progress ∧ world.row.status = .running ∧
        OnPlan services row progress ∧ job = world.row ∧
        services.importOptions row.options = some options
  | .recording job options read =>
      Open row world .nothing ∧ world.row.status = .running ∧ job.nextIndex = 0 ∧
        read.problems ≠ [] ∧ services.importOptions row.options = some options ∧
        ∃ input, row.input = some input ∧
          services.readFile row.format input options.defaultDifficulty = .read read
  | .importing options items position =>
      ∃ read progress, Open row world progress ∧ world.row.status = .running ∧
        planOf services row = .imports options read ∧ Started services options read progress ∧
        items = read.items ∧ position = progress.position
  | .refusing options items position problem =>
      ∃ read progress entry, Open row world progress ∧ world.row.status = .running ∧
        planOf services row = .imports options read ∧ Started services options read progress ∧
        items = read.items ∧ position = progress.position ∧ items[position]? = some entry ∧
        importOne services options entry = some problem
  | .exporting _ _ => False
  | .storing _ _ => False

variable {services row}

private theorem onPlan_of_started {options : ImportOptions} {read : ReadResult}
    {progress : Progress} (plan : planOf services row = .imports options read)
    (started : Started services options read progress) : OnPlan services row progress :=
  .inr ⟨options, read, plan, started⟩

private theorem onPlan_fails {message : JsString} {progress : Progress}
    (plan : planOf services row = .fails message) (onPlan : OnPlan services row progress) :
    progress = .nothing := by
  rcases onPlan with nothing | ⟨options, read, other, _⟩
  · exact nothing
  · rw [plan] at other
    cases other

private theorem planned_fails {message : JsString} (plan : planOf services row = .fails message) :
    planned services row = (.nothing, .failed message) := by
  rw [planned, plan]
  rfl

/-- A thrown error is a failure of the last delivery and leaves any other where it was. -/
private theorem inPhase_afterThrow {call : Call} {world : World} {progress : Progress}
    (opened : Open row world progress) (running : world.row.status = .running)
    (onPlan : OnPlan services row progress)
    (stopped : planned services row = (progress, .failed STOPPED)) :
    InPhase services row world (afterThrow call) := by
  unfold afterThrow
  split
  · exact ⟨progress, opened, running, onPlan, stopped⟩
  · exact .inr ⟨progress, opened, onPlan⟩

private theorem open_start (now : Nat) {world : World} {progress : Progress}
    (opened : Open row world progress) :
    ∃ job, startBankJob world.row now = some job ∧ job.status = .running ∧
      Open row ⟨job, world.created⟩ progress := by
  rw [startBankJob, if_pos opened.isOpen]
  refine ⟨_, rfl, rfl, ⟨?_, rfl, opened.kind, opened.options, opened.format, opened.input,
    opened.failure⟩⟩
  exact ⟨opened.stands.cursor, opened.stands.created, opened.stands.createdCount,
    opened.stands.skippedCount, opened.stands.problems, opened.stands.truncated⟩

private theorem inPhase_ready {call : Call} {world : World} (steady : Steady services row world) :
    let next := Phase.ready.step services call world
    InPhase services row next.1 next.2 := by
  simp only [Phase.step]
  rcases steady with closed | ⟨progress, opened, onPlan⟩
  · have final : world.row.status.isOpen = false := by
      have ended := closed.ended
      unfold EndedAs at ended
      split at ended <;> rw [ended.1] <;> rfl
    rw [startBankJob_final _ final]
    exact .inl closed
  · obtain ⟨job, started, running, here⟩ := open_start call.now opened
    have kind : job.kind = .import := here.kind
    have sameOptions : job.options = row.options := here.options
    rw [started]
    simp only [afterStart, kind, sameOptions]
    cases parsed : services.importOptions row.options with
    | none =>
        have plan : planOf services row =
            .fails (js "The import options on this job are invalid.") := by
          rw [planOf, parsed]
        refine ⟨progress, here, running, onPlan, ?_⟩
        rw [onPlan_fails plan onPlan]
        exact planned_fails plan
    | some options => exact ⟨progress, here, running, onPlan, rfl, parsed⟩

private theorem firstRun_iff {world : World} {progress : Progress}
    (stands : StandsAt world progress) :
    firstRun world.row = true ↔
      progress.position = 0 ∧ progress.created = [] ∧ progress.skipped = 0 := by
  simp only [firstRun, Bool.and_eq_true, beq_iff_eq, stands.cursor, stands.createdCount,
    stands.skippedCount, List.length_eq_zero_iff, and_assoc]

private theorem begin_of_no_problems {read : ReadResult} (none : read.problems = []) :
    Progress.begin read = .nothing := by
  rw [Progress.begin, none]
  rfl

private theorem problemIndices_pos {problems : List ItemProblem} (some' : problems ≠ []) :
    0 < (problemIndices problems).length := by
  obtain ⟨problem, rest, rfl⟩ := List.exists_cons_of_ne_nil some'
  exact List.length_pos_of_mem (List.mem_dedup.mpr (List.mem_map_of_mem List.mem_cons_self))

private theorem inPhase_reading {call : Call} {world : World} {job : BankJobRow}
    {options : ImportOptions} (inPhase : InPhase services row world (.reading job options)) :
    let next := (Phase.reading job options).step services call world
    InPhase services row next.1 next.2 := by
  obtain ⟨progress, opened, running, onPlan, rfl, parsed⟩ := inPhase
  simp only [Phase.step, opened.input, opened.format, afterInput]
  cases input : row.input with
  | none =>
      have plan : planOf services row =
          .fails (js "The uploaded file is no longer available; upload it again.") := by
        simp only [planOf, parsed, input]
      refine ⟨progress, opened, running, onPlan, ?_⟩
      rw [onPlan_fails plan onPlan]
      exact planned_fails plan
  | some bytes =>
  simp only
  cases file : services.readFile row.format bytes options.defaultDifficulty with
  | unreadable message =>
      have plan : planOf services row = .fails message := by
        simp only [planOf, parsed, input, file]
      refine ⟨progress, opened, running, onPlan, ?_⟩
      rw [onPlan_fails plan onPlan]
      exact planned_fails plan
  | unexpected =>
      have plan : planOf services row = .fails STOPPED := by
        simp only [planOf, parsed, input, file]
      refine inPhase_afterThrow opened running onPlan ?_
      rw [onPlan_fails plan onPlan]
      exact planned_fails plan
  | read result =>
  by_cases first : firstRun world.row = true ∧ result.problems ≠ []
  · have recording : (firstRun world.row && decide (result.problems ≠ [])) = true := by
      simp [first.1, first.2]
    simp only [recording, if_true]
    obtain ⟨atStart, _, noneSkipped⟩ := (firstRun_iff opened.stands).mp first.1
    have nothing : progress = .nothing := by
      rcases onPlan with nothing | ⟨others, read, plan, started⟩
      · exact nothing
      · have same : read = result := by
          simp only [planOf, parsed, input, file] at plan
          split at plan
          · cases plan
          · cases plan
            rfl
        rcases started.recorded with none | moved | skipped
        · exact absurd (same ▸ none) first.2
        · omega
        · omega
    rw [nothing] at opened
    exact ⟨opened, running, opened.stands.cursor, first.2, parsed, bytes, input, file⟩
  · have importing : (firstRun world.row && decide (result.problems ≠ [])) = false := by
      simpa using first
    simp only [importing, Bool.false_eq_true, if_false]
    rcases onPlan with nothing | ⟨others, read, plan, started⟩
    · subst nothing
      have none : result.problems = [] := by
        by_contra some'
        exact first ⟨(firstRun_iff opened.stands).mpr ⟨rfl, rfl, rfl⟩, some'⟩
      have plan : planOf services row = .imports options result := by
        simp [planOf, parsed, input, file, none]
      refine ⟨result, .nothing, opened, running, plan, ⟨.inl none, ?_⟩, rfl, opened.stands.cursor⟩
      rw [begin_of_no_problems none]
      rfl
    · have same : others = options ∧ read = result := by
        simp only [planOf, parsed, input, file] at plan
        split at plan
        · cases plan
        · cases plan
          exact ⟨rfl, rfl⟩
      rw [same.1, same.2] at plan started
      exact ⟨result, progress, opened, running, plan, started, rfl, opened.stands.cursor⟩

private theorem inPhase_recording {call : Call} {world : World} {job : BankJobRow}
    {options : ImportOptions} {read : ReadResult}
    (inPhase : InPhase services row world (.recording job options read)) :
    let next := (Phase.recording job options read).step services call world
    InPhase services row next.1 next.2 := by
  obtain ⟨opened, running, atStart, some', parsed, input, given, file⟩ := inPhase
  simp only [Phase.step]
  split
  · rename_i stored
    have plan : planOf services row = .imports options read := by
      simp [planOf, parsed, given, file, stored]
    have skipped := problemIndices_pos some'
    have recorded : ∀ problems, (recordParseProblems world.row problems).status =
        world.row.status ∧ (recordParseProblems world.row problems).kind = world.row.kind ∧
        (recordParseProblems world.row problems).options = world.row.options ∧
        (recordParseProblems world.row problems).format = world.row.format ∧
        (recordParseProblems world.row problems).input = world.row.input ∧
        (recordParseProblems world.row problems).failure = world.row.failure := by
      intro problems
      unfold recordParseProblems
      split <;> exact ⟨rfl, rfl, rfl, rfl, rfl, rfl⟩
    obtain ⟨status, kind, sameOptions, format, sameInput, failure⟩ := recorded read.problems
    refine ⟨read, .begin read, ⟨standsAt_begin opened.stands some', ?_, ?_, ?_, ?_, ?_, ?_⟩,
      status.trans running, plan, ⟨.inr (.inr skipped), rfl⟩, rfl, atStart⟩
    · rw [status]
      exact opened.isOpen
    · exact kind.trans opened.kind
    · exact sameOptions.trans opened.options
    · exact format.trans opened.format
    · exact sameInput.trans opened.input
    · exact failure.trans opened.failure
  · rename_i unstored
    have plan : planOf services row = .fails STOPPED := by
      simp [planOf, parsed, given, file, unstored, some']
    exact inPhase_afterThrow opened running (.inl rfl) (planned_fails plan)

private theorem drop_of_getElem? {items : List Entry} {position : Nat} {entry : Entry}
    (found : items[position]? = some entry) :
    items.drop position = entry :: items.drop (position + 1) := by
  obtain ⟨inside, rfl⟩ := List.getElem?_eq_some_iff.mp found
  exact List.drop_eq_getElem_cons inside

/-- A checkpoint leaves alone everything but the counts and the problems. -/
private theorem advanceImport_keeps (from' : BankJobRow) (next : Nat) (created : Bool)
    (problems : List ItemProblem) :
    (advanceImport from' next created problems).status = from'.status ∧
      (advanceImport from' next created problems).kind = from'.kind ∧
      (advanceImport from' next created problems).options = from'.options ∧
      (advanceImport from' next created problems).format = from'.format ∧
      (advanceImport from' next created problems).input = from'.input ∧
      (advanceImport from' next created problems).failure = from'.failure := by
  unfold advanceImport
  simp only
  split <;> exact ⟨rfl, rfl, rfl, rfl, rfl, rfl⟩

private theorem open_advance {world : World} {progress later : Progress}
    {created : List CreatedQuestion} {next : Nat} {one : Bool} {problems : List ItemProblem}
    (opened : Open row world progress)
    (stands : StandsAt ⟨advanceImport world.row next one problems, created⟩ later) :
    Open row ⟨advanceImport world.row next one problems, created⟩ later := by
  obtain ⟨status, kind, options, format, input, failure⟩ :=
    advanceImport_keeps world.row next one problems
  constructor
  · exact stands
  · show (advanceImport world.row next one problems).status.isOpen = true
    rw [status]
    exact opened.isOpen
  · exact kind.trans opened.kind
  · exact options.trans opened.options
  · exact format.trans opened.format
  · exact input.trans opened.input
  · exact failure.trans opened.failure

private theorem planned_imports {options : ImportOptions} {read : ReadResult}
    {progress : Progress} (plan : planOf services row = .imports options read)
    (started : Started services options read progress) :
    planned services row =
      importAll services options (read.items.drop progress.position) progress := by
  rw [planned, plan, started.rest]
  rfl

private theorem inPhase_importing {call : Call} {world : World} {options : ImportOptions}
    {items : List Entry} {position : Nat}
    (inPhase : InPhase services row world (.importing options items position)) :
    let next := (Phase.importing options items position).step services call world
    InPhase services row next.1 next.2 := by
  obtain ⟨read, progress, opened, running, plan, started, rfl, rfl⟩ := inPhase
  simp only [Phase.step]
  cases found : read.items[progress.position]? with
  | none =>
      have nothingLeft : read.items.drop progress.position = [] :=
        List.drop_eq_nil_of_le (List.getElem?_eq_none_iff.mp found)
      have ends := planned_imports plan started
      rw [nothingLeft] at ends
      refine .inl ⟨?_, ?_⟩
      · rw [ends]
        exact ⟨opened.stands.cursor, opened.stands.created, opened.stands.createdCount,
          opened.stands.skippedCount, opened.stands.problems, opened.stands.truncated⟩
      · rw [ends]
        exact ⟨rfl, opened.failure⟩
  | some entry =>
      simp only
      cases refusal : importOne services options entry with
      | none =>
          have rest := started.rest
          rw [drop_of_getElem? found, importAll, refusal] at rest
          have stands := standsAt_create opened.stands options entry.item
          refine ⟨read, progress.create options entry.item, open_advance opened stands,
            running, plan, ⟨.inr (.inl (Nat.succ_pos _)), rest⟩, rfl, rfl⟩
      | some problem =>
          exact ⟨read, progress, entry, opened, running, plan, started, rfl, rfl, found, refusal⟩

private theorem inPhase_refusing {call : Call} {world : World} {options : ImportOptions}
    {items : List Entry} {position : Nat} {problem : ItemProblem}
    (inPhase : InPhase services row world (.refusing options items position problem)) :
    let next := (Phase.refusing options items position problem).step services call world
    InPhase services row next.1 next.2 := by
  obtain ⟨read, progress, entry, opened, running, plan, started, rfl, rfl, found, refusal⟩ := inPhase
  have rest := started.rest
  rw [drop_of_getElem? found, importAll, refusal] at rest
  simp only [Phase.step]
  split
  · rename_i stored
    simp only [stored, if_true] at rest
    have stands := standsAt_refuse opened.stands problem
    have status := (advanceImport_keeps world.row (progress.position + 1) false [problem]).1
    exact ⟨read, progress.refuse problem, open_advance opened stands, status.trans running, plan,
      ⟨.inr (.inl (Nat.succ_pos _)), rest⟩, rfl, rfl⟩
  · rename_i unstored
    have ends := planned_imports plan started
    rw [drop_of_getElem? found, importAll, refusal] at ends
    simp only [unstored, Bool.false_eq_true, if_false] at ends
    exact inPhase_afterThrow opened running (onPlan_of_started plan started) ends

private theorem inPhase_failing {call : Call} {world : World} {message : JsString}
    (inPhase : InPhase services row world (.failing message)) :
    let next := (Phase.failing message).step services call world
    InPhase services row next.1 next.2 := by
  obtain ⟨progress, opened, _, _, ends⟩ := inPhase
  refine .inl ⟨?_, ?_⟩
  · rw [ends]
    exact ⟨opened.stands.cursor, opened.stands.created, opened.stands.createdCount,
      opened.stands.skippedCount, opened.stands.problems, opened.stands.truncated⟩
  · rw [ends]
    exact ⟨rfl, rfl⟩

/-- The step lemma: a transaction of a delivery keeps it on the plan. -/
theorem inPhase_step (call : Call) {world : World} {phase : Phase}
    (inPhase : InPhase services row world phase) :
    let next := phase.step services call world
    InPhase services row next.1 next.2 := by
  cases phase with
  | ready => exact inPhase_ready inPhase
  | failing message => exact inPhase_failing inPhase
  | reading job options => exact inPhase_reading inPhase
  | recording job options read => exact inPhase_recording inPhase
  | importing options items position => exact inPhase_importing inPhase
  | refusing options items position problem => exact inPhase_refusing inPhase
  | exporting job options => exact inPhase.elim
  | storing result now => exact inPhase.elim
  | done => exact inPhase

/-! ### No transaction of a delivery is stale -/

theorem fresh_of_inPhase {world : World} {phase : Phase} (inPhase : InPhase services row world phase) :
    Fresh world.row phase := by
  cases phase with
  | ready => trivial
  | failing message => obtain ⟨progress, _, running, _⟩ := inPhase; exact running
  | reading job options => trivial
  | recording job options read => exact inPhase.2.1
  | importing options items position =>
      obtain ⟨read, progress, opened, running, _, _, _, rfl⟩ := inPhase
      exact ⟨running, fun _ => opened.stands.cursor⟩
  | refusing options items position problem =>
      obtain ⟨read, progress, entry, opened, running, _, _, _, rfl, _⟩ := inPhase
      exact ⟨running, opened.stands.cursor⟩
  | exporting job options => trivial
  | storing result now => exact inPhase.elim
  | done => trivial

/-- Wherever a delivery stops, the row it leaves is one the next delivery can start from. -/
theorem steady_of_inPhase {world : World} {phase : Phase}
    (inPhase : InPhase services row world phase) : Steady services row world := by
  cases phase with
  | ready => exact inPhase
  | failing message =>
      obtain ⟨progress, opened, _, onPlan, _⟩ := inPhase
      exact .inr ⟨progress, opened, onPlan⟩
  | reading job options =>
      obtain ⟨progress, opened, _, onPlan, _⟩ := inPhase
      exact .inr ⟨progress, opened, onPlan⟩
  | recording job options read => exact .inr ⟨.nothing, inPhase.1, .inl rfl⟩
  | importing options items position =>
      obtain ⟨read, progress, opened, _, plan, started, _⟩ := inPhase
      exact .inr ⟨progress, opened, onPlan_of_started plan started⟩
  | refusing options items position problem =>
      obtain ⟨read, progress, entry, opened, _, plan, started, _⟩ := inPhase
      exact .inr ⟨progress, opened, onPlan_of_started plan started⟩
  | exporting job options => exact inPhase.elim
  | storing result now => exact inPhase.elim
  | done => exact inPhase

/-! ### How long a delivery can take -/

/-- How many items the file of a job holds. -/
def itemCount (services : Services) (row : BankJobRow) : Nat :=
  match planOf services row with
  | .fails _ => 0
  | .imports _ read => read.items.length

/-- A bound on the transactions a delivery still takes when the file holds `count` items. -/
def transactionsLeft (count : Nat) : Phase → Nat
  | .ready => 2 * count + 6
  | .reading _ _ => 2 * count + 5
  | .recording _ _ _ => 2 * count + 4
  | .importing _ _ position => 2 * (count - position) + 3
  | .refusing _ _ position _ => 2 * (count - position) + 2
  | .failing _ => 1
  | .exporting _ _ => 0
  | .storing _ _ => 0
  | .done => 0

private theorem transactionsLeft_afterThrow (count : Nat) (call : Call) :
    transactionsLeft count (afterThrow call) ≤ 1 := by
  unfold afterThrow
  split <;> simp [transactionsLeft]

private theorem itemCount_imports {options : ImportOptions} {read : ReadResult}
    (plan : planOf services row = .imports options read) :
    itemCount services row = read.items.length := by
  rw [itemCount, plan]

theorem transactionsLeft_step (call : Call) {world : World} {phase : Phase}
    (inPhase : InPhase services row world phase) (notDone : phase ≠ .done) :
    transactionsLeft (itemCount services row) (phase.step services call world).2 <
      transactionsLeft (itemCount services row) phase := by
  have later := inPhase_step call inPhase
  have thrown := transactionsLeft_afterThrow (itemCount services row) call
  cases phase with
  | ready =>
      simp only [Phase.step] at later ⊢
      split
      · simp [transactionsLeft]
      · rename_i job started
        simp only [started] at later
        unfold afterStart at later ⊢
        repeat' split
        all_goals simp [transactionsLeft]
  | failing message => simp [Phase.step, transactionsLeft]
  | reading job options =>
      simp only [Phase.step]
      unfold afterInput
      repeat' split
      all_goals simp only [transactionsLeft] at thrown ⊢
      all_goals omega
  | recording job options read =>
      simp only [Phase.step]
      split
      · simp only [transactionsLeft]
        omega
      · refine lt_of_le_of_lt thrown ?_
        simp only [transactionsLeft]
        omega
  | importing options items position =>
      obtain ⟨read, progress, _, _, plan, _, rfl, rfl⟩ := inPhase
      simp only [Phase.step]
      split
      · simp [transactionsLeft]
      · rename_i entry found
        obtain ⟨inside, _⟩ := List.getElem?_eq_some_iff.mp found
        split <;> simp only [transactionsLeft, itemCount_imports plan] <;> omega
  | refusing options items position problem =>
      obtain ⟨read, progress, entry, _, _, plan, _, rfl, rfl, found, _⟩ := inPhase
      obtain ⟨inside, _⟩ := List.getElem?_eq_some_iff.mp found
      simp only [Phase.step]
      split
      · simp only [transactionsLeft, itemCount_imports plan]
        omega
      · refine lt_of_le_of_lt thrown ?_
        simp only [transactionsLeft]
        omega
  | exporting job options => exact inPhase.elim
  | storing result now => exact inPhase.elim
  | done => exact absurd rfl notDone

/-! ### Deliveries -/

/-- A delivery runs some transactions and stops there: it is done, or it crashed. -/
structure Delivery where
  finalAttempt : Bool
  instants : List Nat

def Delivery.calls (delivery : Delivery) : List Call :=
  delivery.instants.map fun now => ⟨now, [], delivery.finalAttempt⟩

/-- The transactions of one delivery, from a phase on. -/
def walk (services : Services) (calls : List Call) (state : World × Phase) : World × Phase :=
  calls.foldl (fun state call => state.2.step services call state.1) state

def deliver (services : Services) (world : World) (delivery : Delivery) : World :=
  (walk services delivery.calls (world, .ready)).1

def deliverAll (services : Services) (world : World) (deliveries : List Delivery) : World :=
  deliveries.foldl (deliver services) world

private theorem walk_keeps (calls : List Call) (state : World × Phase)
    (inPhase : InPhase services row state.1 state.2) (once : CreatedOnce state.1) :
    InPhase services row (walk services calls state).1 (walk services calls state).2 ∧
      CreatedOnce (walk services calls state).1 := by
  induction calls generalizing state with
  | nil => exact ⟨inPhase, once⟩
  | cons call rest inductionHypothesis =>
      exact inductionHypothesis _ (inPhase_step call inPhase)
        (createdOnce_step once (fresh_of_inPhase inPhase))

private theorem deliverAll_keeps {world : World} (deliveries : List Delivery)
    (steady : Steady services row world) (once : CreatedOnce world) :
    Steady services row (deliverAll services world deliveries) ∧
      CreatedOnce (deliverAll services world deliveries) := by
  induction deliveries generalizing world with
  | nil => exact ⟨steady, once⟩
  | cons delivery rest inductionHypothesis =>
      obtain ⟨inPhase, still⟩ := walk_keeps delivery.calls (world, .ready) steady once
      exact inductionHypothesis (steady_of_inPhase inPhase) still

/-! ### The last delivery, uninterrupted -/

/-- The last delivery leaves no row open behind it. -/
private theorem closed_of_done {call : Call} (last : call.finalAttempt = true) {world : World}
    {phase : Phase} (inPhase : InPhase services row world phase) (notDone : phase ≠ .done)
    (ends : (phase.step services call world).2 = .done) :
    (phase.step services call world).1.row.status.isOpen = false := by
  have throws : afterThrow call = .failing STOPPED := by
    rw [afterThrow, if_pos last]
    rfl
  cases phase with
  | ready =>
      simp only [Phase.step] at ends ⊢
      split at ends
      · rename_i refused
        show world.row.status.isOpen = false
        by_contra isOpen
        simp only [Bool.not_eq_false] at isOpen
        rw [startBankJob, if_pos isOpen] at refused
        cases refused
      · unfold afterStart at ends
        repeat' split at ends
        all_goals cases ends
  | failing message => rfl
  | reading job options =>
      simp only [Phase.step] at ends
      unfold afterInput at ends
      rw [throws] at ends
      repeat' split at ends
      all_goals cases ends
  | recording job options read =>
      simp only [Phase.step, throws] at ends
      split at ends <;> cases ends
  | importing options items position =>
      simp only [Phase.step] at ends ⊢
      split at ends
      · rfl
      · split at ends <;> cases ends
  | refusing options items position problem =>
      simp only [Phase.step, throws] at ends
      split at ends <;> cases ends
  | exporting job options => exact inPhase.elim
  | storing result now => exact inPhase.elim
  | done => exact absurd rfl notDone

private theorem walk_done (calls : List Call) (world : World) :
    walk services calls (world, .done) = (world, .done) := by
  induction calls with
  | nil => rfl
  | cons call rest inductionHypothesis => exact inductionHypothesis

private theorem walk_last {calls : List Call} {state : World × Phase}
    (last : ∀ call ∈ calls, call.finalAttempt = true)
    (inPhase : InPhase services row state.1 state.2) (notDone : state.2 ≠ .done)
    (enough : transactionsLeft (itemCount services row) state.2 ≤ calls.length) :
    (walk services calls state).1.row.status.isOpen = false := by
  induction calls generalizing state with
  | nil =>
      have left := transactionsLeft_step ⟨0, [], true⟩ inPhase notDone
      simp only [List.length_nil] at enough
      omega
  | cons call rest inductionHypothesis =>
      have fewer := transactionsLeft_step call inPhase notDone
      have isLast := last call List.mem_cons_self
      by_cases ends : (state.2.step services call state.1).2 = .done
      · have closed := closed_of_done isLast inPhase notDone ends
        show (walk services rest (state.2.step services call state.1)).1.row.status.isOpen = false
        rw [← Prod.mk.eta (p := state.2.step services call state.1), ends, walk_done]
        exact closed
      · refine inductionHypothesis (fun other member => last other (List.mem_cons_of_mem _ member))
          (inPhase_step call inPhase) ends ?_
        show transactionsLeft _ (state.2.step services call state.1).2 ≤ rest.length
        simp only [List.length_cons] at enough
        omega

end

/-! ### Resumption -/

/-- An import as the API wrote it, before any delivery. -/
structure NewImport (row : BankJobRow) : Prop where
  kind : row.kind = .import
  isOpen : row.status.isOpen = true
  nextIndex : row.nextIndex = 0
  createdCount : row.createdCount = 0
  skippedCount : row.skippedCount = 0
  problems : row.problems = []
  truncated : row.problemsTruncated = false
  failure : row.failure = none

/-- What a job comes to: its counts, its problems, how it ended, and what it created. -/
structure Outcome where
  status : BankJobStatus
  failure : Option JsString
  createdCount : Nat
  skippedCount : Nat
  problems : List ItemProblem
  problemsTruncated : Bool
  created : List CreatedQuestion

def World.outcome (world : World) : Outcome where
  status := world.row.status
  failure := world.row.failure
  createdCount := world.row.createdCount
  skippedCount := world.row.skippedCount
  problems := world.row.problems
  problemsTruncated := world.row.problemsTruncated
  created := world.created

private theorem outcome_of_closed {left right : World} {outcome : Progress × Ending}
    (first : Closed left outcome) (second : Closed right outcome) :
    left.outcome = right.outcome := by
  have ended : left.row.status = right.row.status ∧ left.row.failure = right.row.failure := by
    obtain ⟨progress, ending⟩ := outcome
    have one := first.ended
    have other := second.ended
    cases ending with
    | succeeded => exact ⟨one.1.trans other.1.symm, one.2.trans other.2.symm⟩
    | failed message => exact ⟨one.1.trans other.1.symm, one.2.trans other.2.symm⟩
  rw [World.outcome, World.outcome, ended.1, ended.2, first.stands.createdCount,
    second.stands.createdCount, first.stands.skippedCount, second.stands.skippedCount,
    first.stands.problems, second.stands.problems, first.stands.truncated,
    second.stands.truncated, first.stands.created, second.stands.created]

private theorem steady_new (services : Services) {row : BankJobRow} (new : NewImport row) :
    Steady services row ⟨row, []⟩ :=
  .inr ⟨.nothing, ⟨⟨new.nextIndex, rfl, new.createdCount, new.skippedCount, new.problems,
    new.truncated⟩, new.isOpen, new.kind, rfl, rfl, rfl, new.failure⟩, .inl rfl⟩

private theorem closed_of_final {services : Services} {row : BankJobRow} {world : World}
    (steady : Steady services row world) (final : world.row.status.isOpen = false) :
    Closed world (planned services row) := by
  rcases steady with closed | ⟨progress, opened, _⟩
  · exact closed
  · have isOpen := opened.isOpen
    rw [final] at isOpen
    cases isOpen

/-- Whatever the deliveries of an import and wherever each of them stops, a position is created
at most once, and once the job is over it has come to what one uninterrupted delivery of it
comes to: the first problems that occurred, cut at the bound, with the flag set iff there were more. -/
theorem import_resumes (services : Services) (row : BankJobRow) (new : NewImport row)
    (deliveries : List Delivery) :
    let world := deliverAll services ⟨row, []⟩ deliveries
    let occurred := (planned services row).1.problems
    (world.created.map CreatedQuestion.position).Nodup ∧
      ∃ transactions, ∀ instants : List Nat, transactions ≤ instants.length →
        let once := deliver services ⟨row, []⟩ ⟨true, instants⟩
        once.row.status.isOpen = false ∧
          (world.row.status.isOpen = false →
            world.outcome = once.outcome ∧
              world.row.problems = occurred.take MAX_STORED_PROBLEMS ∧
              (world.row.problemsTruncated = true ↔ MAX_STORED_PROBLEMS < occurred.length)) := by
  intro world occurred
  have nothingYet : CreatedOnce ⟨row, []⟩ := ⟨List.nodup_nil, fun _ member => by cases member⟩
  obtain ⟨steady, created⟩ :=
    deliverAll_keeps deliveries (steady_new services new) nothingYet
  refine ⟨created.once, transactionsLeft (itemCount services row) .ready, ?_⟩
  intro instants enough once
  have begins : InPhase services row ⟨row, []⟩ .ready := steady_new services new
  have ended : once.row.status.isOpen = false := by
    refine walk_last ?_ begins (by simp) (by simpa [Delivery.calls] using enough)
    intro call member
    obtain ⟨now, _, rfl⟩ := List.mem_map.mp member
    rfl
  have onceSteady : Steady services row once :=
    steady_of_inPhase (walk_keeps _ (_, .ready) begins nothingYet).1
  refine ⟨ended, fun final => ?_⟩
  have closed := closed_of_final steady final
  refine ⟨outcome_of_closed closed (closed_of_final onceSteady ended), closed.stands.problems, ?_⟩
  show world.row.problemsTruncated = true ↔ _
  rw [closed.stands.truncated]
  exact decide_eq_true_iff

/-- Two items; the first delivery crashes between them. -/
theorem import_resumes_example :
    let world := deliverAll (sampleServices 2) ⟨sampleRow, []⟩ [⟨false, [0, 0, 0]⟩, ⟨false, [0, 0, 0, 0]⟩]
    world.created.map CreatedQuestion.position = [0, 1] ∧
      world.row.status.isOpen = false ∧
      (world.created.map CreatedQuestion.position).Nodup ∧
      ∃ transactions, ∀ instants : List Nat, transactions ≤ instants.length →
        let once := deliver (sampleServices 2) ⟨sampleRow, []⟩ ⟨true, instants⟩
        once.row.status.isOpen = false ∧
          (world.row.status.isOpen = false →
            world.outcome = once.outcome ∧
              world.row.problems =
                (planned (sampleServices 2) sampleRow).1.problems.take MAX_STORED_PROBLEMS ∧
              (world.row.problemsTruncated = true ↔
                MAX_STORED_PROBLEMS < (planned (sampleServices 2) sampleRow).1.problems.length)) :=
  ⟨by decide +kernel, by decide +kernel,
    import_resumes (sampleServices 2) sampleRow ⟨rfl, rfl, rfl, rfl, rfl, rfl, rfl, rfl⟩
      [⟨false, [0, 0, 0]⟩, ⟨false, [0, 0, 0, 0]⟩]⟩

end Assaybank.Jobs
