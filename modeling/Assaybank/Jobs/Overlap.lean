import Assaybank.Jobs.BankJob

/-!
Owns overlapping deliveries of one job: any number of runners taking turns on one row, each
with its own stale copy of where it stands.

The updates of a row name only its id, so a runner that was overtaken still writes. `Fresh` is
the condition under which none does: a transaction that writes runs while the row is still
running, and a checkpoint is taken from the position the row stands at. In every run of
such transactions an item is created once, the cursor never goes back and a final row
stays as it is.
-/

namespace Assaybank.Jobs

open Assaybank.Runtime Assaybank.Library Assaybank.Interchange

/-- A transaction that writes nothing another delivery has made stale. -/
def Fresh (row : BankJobRow) : Phase → Prop
  | .ready => True
  | .reading _ _ => True
  | .exporting _ _ => True
  | .done => True
  | .failing _ => row.status = .running
  | .recording _ _ _ => row.status = .running
  | .storing _ _ => row.status = .running
  | .importing _ items position =>
      row.status = .running ∧ (position < items.length → row.nextIndex = position)
  | .refusing _ _ position _ => row.status = .running ∧ row.nextIndex = position

instance decidableFresh (row : BankJobRow) : (phase : Phase) → Decidable (Fresh row phase)
  | .ready => isTrue trivial
  | .reading _ _ => isTrue trivial
  | .exporting _ _ => isTrue trivial
  | .done => isTrue trivial
  | .failing _ => inferInstanceAs (Decidable (_ = _))
  | .recording _ _ _ => inferInstanceAs (Decidable (_ = _))
  | .storing _ _ => inferInstanceAs (Decidable (_ = _))
  | .importing _ _ _ => inferInstanceAs (Decidable (_ ∧ (_ → _)))
  | .refusing _ _ _ _ => inferInstanceAs (Decidable (_ ∧ _))

/-! ### Runs -/

/-- One job's world and every delivery of it. A delivery not begun yet is `ready`. -/
structure System where
  world : World
  runners : Nat → Phase

/-- A delivery takes its next transaction. -/
structure Turn where
  runner : Nat
  call : Call

def System.start (row : BankJobRow) : System := ⟨⟨row, []⟩, fun _ => .ready⟩

def System.turn (services : Services) (system : System) (turn : Turn) : System :=
  let next := (system.runners turn.runner).step services turn.call system.world
  ⟨next.1, Function.update system.runners turn.runner next.2⟩

def System.run (services : Services) (system : System) (turns : List Turn) : System :=
  turns.foldl (System.turn services) system

/-- A run whose every transaction is fresh in the state it is taken in. -/
def FreshRun (services : Services) : System → List Turn → Prop
  | _, [] => True
  | system, turn :: rest =>
      Fresh system.world.row (system.runners turn.runner) ∧
        FreshRun services (system.turn services turn) rest

instance decidableFreshRun (services : Services) :
    (system : System) → (turns : List Turn) → Decidable (FreshRun services system turns)
  | _, [] => isTrue trivial
  | system, turn :: rest =>
      have := decidableFreshRun services (system.turn services turn) rest
      inferInstanceAs (Decidable (_ ∧ _))

theorem freshRun_append {services : Services} {system : System} {before after : List Turn} :
    FreshRun services system (before ++ after) ↔
      FreshRun services system before ∧
        FreshRun services (system.run services before) after := by
  induction before generalizing system with
  | nil => simp [FreshRun, System.run]
  | cons turn rest inductionHypothesis =>
      simp only [List.cons_append, FreshRun, inductionHypothesis, and_assoc]
      rfl

/-! ### What the updates leave alone -/

/-- Every item created stands before the cursor, and once. -/
structure CreatedOnce (world : World) : Prop where
  once : (world.created.map CreatedQuestion.position).Nodup
  behind : ∀ created ∈ world.created, created.position < world.row.nextIndex

@[simp] theorem appendProblems_nextIndex (row : BankJobRow) (problems : List ItemProblem) :
    (appendProblems row problems).nextIndex = row.nextIndex := rfl

@[simp] theorem appendProblems_status (row : BankJobRow) (problems : List ItemProblem) :
    (appendProblems row problems).status = row.status := rfl

@[simp] theorem recordParseProblems_nextIndex (row : BankJobRow) (problems : List ItemProblem) :
    (recordParseProblems row problems).nextIndex = row.nextIndex := by
  unfold recordParseProblems
  split <;> rfl

@[simp] theorem advanceImport_nextIndex (row : BankJobRow) (next : Nat) (created : Bool)
    (problems : List ItemProblem) : (advanceImport row next created problems).nextIndex = next := by
  unfold advanceImport
  simp only
  split <;> rfl

theorem startBankJob_nextIndex {row job : BankJobRow} {now : Nat}
    (started : startBankJob row now = some job) : job.nextIndex = row.nextIndex := by
  unfold startBankJob at started
  split at started
  · cases started
    rfl
  · cases started

theorem startBankJob_final {row : BankJobRow} (now : Nat) (final : row.status.isOpen = false) :
    startBankJob row now = none := by
  simp [startBankJob, final]

/-- What one transaction does to the world: nothing, an update of the row that keeps the cursor,
or a checkpoint that moves it past one position and may create the item there. -/
inductive Effect (world : World) : Phase → World → Prop where
  | none {phase : Phase} : Effect world phase world
  | update {phase : Phase} {row : BankJobRow} (cursor : row.nextIndex = world.row.nextIndex)
      (opened : world.row.status.isOpen = true ∨ ¬ Fresh world.row phase) :
      Effect world phase { world with row := row }
  | create {options : ImportOptions} {items : List Entry} {position : Nat} {row : BankJobRow}
      {item : BankItem} (inside : position < items.length) (cursor : row.nextIndex = position + 1) :
      Effect world (.importing options items position)
        ⟨row, world.created ++ [⟨position, item, options⟩]⟩
  | refuse {options : ImportOptions} {items : List Entry} {position : Nat} {problem : ItemProblem}
      {row : BankJobRow} (cursor : row.nextIndex = position + 1) :
      Effect world (.refusing options items position problem) { world with row := row }

private theorem open_or_stale {row : BankJobRow} {phase : Phase}
    (running : Fresh row phase → row.status = .running) :
    row.status.isOpen = true ∨ ¬ Fresh row phase := by
  by_cases fresh : Fresh row phase
  · left
    rw [running fresh]
    rfl
  · exact .inr fresh

/-- The inversion lemma of a transaction. -/
theorem step_effect (services : Services) (call : Call) (world : World) (phase : Phase) :
    Effect world phase (phase.step services call world).1 := by
  cases phase with
  | ready =>
      simp only [Phase.step]
      split
      · exact .none
      · rename_i job started
        refine .update (startBankJob_nextIndex started) (.inl ?_)
        by_contra final
        rw [startBankJob_final _ (by simpa using final)] at started
        cases started
  | failing message => exact .update rfl (open_or_stale id)
  | reading job options => exact .none
  | recording job options read =>
      simp only [Phase.step]
      split
      · exact .update (by simp) (open_or_stale id)
      · exact .none
  | importing options items position =>
      simp only [Phase.step]
      split
      · exact .update rfl (open_or_stale And.left)
      · rename_i entry found
        split
        · obtain ⟨inside, _⟩ := List.getElem?_eq_some_iff.mp found
          exact .create inside (by simp)
        · exact .none
  | refusing options items position problem =>
      simp only [Phase.step]
      split
      · exact .refuse (by simp)
      · exact .none
  | exporting job options => exact .none
  | storing result now => exact .update rfl (open_or_stale id)
  | done => exact .none

/-! ### One fresh transaction -/

theorem createdOnce_step {services : Services} {call : Call} {world : World} {phase : Phase}
    (once : CreatedOnce world) (fresh : Fresh world.row phase) :
    CreatedOnce (phase.step services call world).1 := by
  have effect := step_effect services call world phase
  generalize (phase.step services call world).1 = after at effect ⊢
  cases effect with
  | none => exact once
  | update cursor => exact ⟨once.once, fun created member => cursor ▸ once.behind created member⟩
  | @create options items position row item inside cursor =>
      have here : world.row.nextIndex = position := fresh.2 inside
      constructor
      · rw [List.map_append, List.nodup_append]
        refine ⟨once.once, by simp, ?_⟩
        intro earlier member other last
        obtain ⟨created, inWorld, rfl⟩ := List.mem_map.mp member
        have before := once.behind created inWorld
        simp only [List.map_cons, List.map_nil, List.mem_singleton] at last
        omega
      · intro created member
        rw [cursor]
        rcases List.mem_append.mp member with earlier | last
        · have := once.behind created earlier
          omega
        · rw [List.mem_singleton.mp last]
          exact Nat.lt_succ_self position
  | refuse cursor =>
      have here : world.row.nextIndex = _ := fresh.2
      refine ⟨once.once, fun created member => ?_⟩
      have := once.behind created member
      rw [cursor]
      omega

theorem nextIndex_step {services : Services} {call : Call} {world : World} {phase : Phase}
    (fresh : Fresh world.row phase) :
    world.row.nextIndex ≤ (phase.step services call world).1.row.nextIndex := by
  have effect := step_effect services call world phase
  generalize (phase.step services call world).1 = after at effect ⊢
  cases effect with
  | none => exact Nat.le_refl _
  | update cursor => exact cursor.ge
  | @create options items position row item inside cursor =>
      show world.row.nextIndex ≤ row.nextIndex
      have := fresh.2 inside
      omega
  | @refuse options items position problem row cursor =>
      show world.row.nextIndex ≤ row.nextIndex
      have := fresh.2
      omega

theorem final_step {services : Services} {call : Call} {world : World} {phase : Phase}
    (fresh : Fresh world.row phase) (final : world.row.status.isOpen = false) :
    (phase.step services call world).1.row = world.row := by
  have notRunning : world.row.status ≠ .running := by
    intro running
    rw [running] at final
    cases final
  have effect := step_effect services call world phase
  generalize (phase.step services call world).1 = after at effect ⊢
  cases effect with
  | none => rfl
  | update _ opened =>
      rcases opened with isOpen | stale
      · rw [isOpen] at final
        cases final
      · exact absurd fresh stale
  | create inside _ => exact absurd fresh.1 notRunning
  | refuse _ => exact absurd fresh.1 notRunning

/-! ### A fresh run -/

private theorem createdOnce_run {services : Services} {system : System} {turns : List Turn}
    (once : CreatedOnce system.world) (fresh : FreshRun services system turns) :
    CreatedOnce (system.run services turns).world := by
  induction turns generalizing system with
  | nil => exact once
  | cons turn rest inductionHypothesis =>
      exact inductionHypothesis (createdOnce_step once fresh.1) fresh.2

private theorem nextIndex_run {services : Services} {system : System} {turns : List Turn}
    (fresh : FreshRun services system turns) :
    system.world.row.nextIndex ≤ (system.run services turns).world.row.nextIndex := by
  induction turns generalizing system with
  | nil => exact Nat.le_refl _
  | cons turn rest inductionHypothesis =>
      exact (nextIndex_step fresh.1).trans (inductionHypothesis fresh.2)

private theorem final_run {services : Services} {system : System} {turns : List Turn}
    (fresh : FreshRun services system turns) (final : system.world.row.status.isOpen = false) :
    (system.run services turns).world.row = system.world.row := by
  induction turns generalizing system with
  | nil => rfl
  | cons turn rest inductionHypothesis =>
      have same :
          (system.turn services turn).world.row = system.world.row := final_step fresh.1 final
      have still : (system.turn services turn).world.row.status.isOpen = false := by
        rw [← final]
        exact congrArg (fun row => BankJobStatus.isOpen row.status) same
      exact (inductionHypothesis fresh.2 still).trans same

/-- In every fresh run, at every point of it: each position is created at most once, the cursor
has not gone back, and a row that was final is the same row. -/
theorem overlapping_deliveries (services : Services) (row : BankJobRow) (before after : List Turn)
    (fresh : FreshRun services (.start row) (before ++ after)) :
    let earlier := (System.start row).run services before
    let later := earlier.run services after
    (later.world.created.map CreatedQuestion.position).Nodup ∧
      earlier.world.row.nextIndex ≤ later.world.row.nextIndex ∧
      (earlier.world.row.status.isOpen = false → later.world.row = earlier.world.row) := by
  obtain ⟨freshBefore, freshAfter⟩ := freshRun_append.mp fresh
  have initially : CreatedOnce (System.start row).world :=
    ⟨List.nodup_nil, fun _ member => by cases member⟩
  have onceBefore := createdOnce_run initially freshBefore
  exact ⟨(createdOnce_run onceBefore freshAfter).once, nextIndex_run freshAfter,
    final_run freshAfter⟩

/-! ### Runs that are not fresh -/

/-- A draft question of one version. -/
def sampleItem : BankItem where
  ref := js "a"
  kind := .subjective
  status := .draft
  sourceLicense := none
  externalRef := none
  skills := []
  versions := [
    { versionNo := 1, published := false, locale := js "en", promptMd := js "q"
      explanationMd := none, difficulty := 1, estSeconds := 1, maxScore := 1, negativeScore := 0
      options := [], codingSpec := none, testCases := [], answerKeys := [] }]

/-- Services under which every file holds `items` copies of one item. -/
def sampleServices (items : Nat) : Services where
  importOptions _ := some ⟨js "MIT", [], none⟩
  exportOptions _ := none
  readFile _ _ _ := .read ⟨List.replicate items ⟨0, sampleItem⟩, []⟩
  stringify s := js "\"" ++ s ++ js "\""
  isVisible _ := true
  canWrite _ _ := true
  canStore _ := true

/-- An import as the API wrote it. -/
def sampleRow : BankJobRow where
  kind := .import
  format := .json
  status := .dispatched
  options := .null
  input := some []
  result := none
  nextIndex := 0
  createdCount := 0
  skippedCount := 0
  problems := []
  problemsTruncated := false
  failure := none
  startedAt := none
  finishedAt := none

/-- Runners taking their turns in the given order. -/
def turnsOf (order : List Nat) : List Turn := order.map fun runner => ⟨runner, ⟨0, [], true⟩⟩

/-- A second delivery starts while the first is creating its items and finishes the job; a third
finds it finished. -/
theorem overlapping_deliveries_example :
    (let earlier := (System.start sampleRow).run (sampleServices 3) (turnsOf [0, 0, 0, 1])
      let later := earlier.run (sampleServices 3) (turnsOf [1, 1, 1, 1])
      (later.world.created.map CreatedQuestion.position).Nodup ∧
        earlier.world.row.nextIndex ≤ later.world.row.nextIndex ∧
        (earlier.world.row.status.isOpen = false → later.world.row = earlier.world.row)) ∧
      (let earlier := (System.start sampleRow).run (sampleServices 3)
          (turnsOf [0, 0, 0, 1, 1, 1, 1, 1])
        let later := earlier.run (sampleServices 3) (turnsOf [2, 2])
        (later.world.created.map CreatedQuestion.position).Nodup ∧
          earlier.world.row.nextIndex ≤ later.world.row.nextIndex ∧
          (earlier.world.row.status.isOpen = false → later.world.row = earlier.world.row)) :=
  ⟨overlapping_deliveries (sampleServices 3) sampleRow (turnsOf [0, 0, 0, 1])
      (turnsOf [1, 1, 1, 1]) (by decide),
    overlapping_deliveries (sampleServices 3) sampleRow (turnsOf [0, 0, 0, 1, 1, 1, 1, 1])
      (turnsOf [2, 2]) (by decide)⟩

/-- Two deliveries that both read the file before either writes create its item twice; a slow
one takes the cursor back; and one that reads after the other has finished fails a job that
had succeeded. -/
theorem overlapping_deliveries_stale :
    ((System.start sampleRow).run (sampleServices 1)
        (turnsOf [0, 1, 0, 1, 0, 1])).world.created.map CreatedQuestion.position = [0, 0] ∧
      ((System.start sampleRow).run (sampleServices 2)
        (turnsOf [0, 1, 0, 1, 0, 0])).world.row.nextIndex = 2 ∧
      ((System.start sampleRow).run (sampleServices 2)
        (turnsOf [0, 1, 0, 1, 0, 0, 1])).world.row.nextIndex = 1 ∧
      ((System.start sampleRow).run (sampleServices 1)
        (turnsOf [0, 1, 0, 0, 0])).world.row.status = .succeeded ∧
      ((System.start sampleRow).run (sampleServices 1)
        (turnsOf [0, 1, 0, 0, 0, 1, 1])).world.row.status = .failed := by
  decide +kernel

end Assaybank.Jobs
