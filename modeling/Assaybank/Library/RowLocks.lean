import Mathlib.Logic.Function.Basic

/-!
Owns transactions that lock a row before they read it, interleaved statement by statement.

Contract: whatever the interleaving, an event does to the store what the transaction it commits does
when it runs alone (`step_serial`). So what each transaction run alone keeps of a row holds of every
row at every point of every run (`run_invariant`), and what each run alone can only move along relates
any two points of a run (`run_related`).

A statement sees the committed row under the transaction's own writes, as it stands when the
statement runs. A transaction locks one row, so deadlock is no subject here.
-/

namespace Assaybank.Library

/-- What is left of a transaction on a row: its statements in order, each with what it writes and
what follows from what it has seen. -/
inductive Transaction (Row Error Result : Type) where
  | done (result : Result)
  | fail (error : Error)
  | statement (write : Row → Row) (next : Row → Transaction Row Error Result)

namespace Transaction

variable {Row Error A B : Type}

def bind : Transaction Row Error A → (A → Transaction Row Error B) → Transaction Row Error B
  | .done a, next => next a
  | .fail error, _ => .fail error
  | .statement write rest, next => .statement write fun row => (rest row).bind next

instance : Monad (Transaction Row Error) where
  pure := .done
  bind := bind

/-- One statement: it fails, or writes the row and answers. -/
def execute (effect : Row → Except Error (Row × A)) : Transaction Row Error A :=
  .statement (fun row => (effect row).toOption.elim row Prod.fst) fun row =>
    match effect row with
    | .ok (_, a) => .done a
    | .error error => .fail error

/-- One statement that only reads. -/
def query (answer : Row → A) : Transaction Row Error A :=
  .statement id fun row => .done (answer row)

/-- A step that touches no row. -/
def ofExcept : Except Error A → Transaction Row Error A
  | .ok a => .done a
  | .error error => .fail error

/-- A transaction from its first statement to its commit, with no other at work on the row. -/
def run : Transaction Row Error A → Row → Except Error (Row × A)
  | .done a, row => .ok (row, a)
  | .fail error, _ => .error error
  | .statement write next, row => (next row).run (write row)

@[simp] theorem run_pure (a : A) (row : Row) :
    (pure a : Transaction Row Error A).run row = .ok (row, a) := rfl

@[simp] theorem run_fail (error : Error) (row : Row) :
    (fail error : Transaction Row Error A).run row = .error error := rfl

@[simp] theorem run_ofExcept (outcome : Except Error A) (row : Row) :
    (ofExcept outcome : Transaction Row Error A).run row = outcome.map fun a => (row, a) := by
  cases outcome <;> rfl

@[simp] theorem run_query (answer : Row → A) (row : Row) :
    (query answer : Transaction Row Error A).run row = .ok (row, answer row) := rfl

@[simp] theorem run_execute (effect : Row → Except Error (Row × A)) (row : Row) :
    (execute effect).run row = effect row := by
  unfold execute
  simp only [run]
  cases effect row <;> rfl

@[simp] theorem run_bind (first : Transaction Row Error A)
    (next : A → Transaction Row Error B) (row : Row) :
    (first >>= next).run row = (first.run row).bind fun after => (next after.2).run after.1 := by
  show (first.bind next).run row = _
  induction first generalizing row with
  | done a => rfl
  | fail error => rfl
  | statement write rest inductionHypothesis => exact inductionHypothesis row (write row)

/-- A sequence commits when both of its parts run through. -/
theorem run_bind_ok {first : Transaction Row Error A} {next : A → Transaction Row Error B}
    {row : Row} {result : Row × B} :
    (first >>= next).run row = .ok result ↔
      ∃ middle a, first.run row = .ok (middle, a) ∧ (next a).run middle = .ok result := by
  rw [run_bind]
  cases first.run row with
  | error error => simp [Except.bind]
  | ok after =>
      simp only [Except.bind, Except.ok.injEq]
      constructor
      · intro ran
        exact ⟨after.1, after.2, rfl, ran⟩
      · rintro ⟨_, _, rfl, ran⟩
        exact ran

/-- A step that touches no row, before the rest. -/
theorem run_ofExcept_bind_ok {outcome : Except Error A} {next : A → Transaction Row Error B}
    {row : Row} {result : Row × B} :
    (ofExcept outcome >>= next).run row = .ok result ↔
      ∃ a, outcome = .ok a ∧ (next a).run row = .ok result := by
  rw [run_bind, run_ofExcept]
  cases outcome with
  | error error => simp [Except.map, Except.bind]
  | ok a => simp [Except.map, Except.bind]

/-- A statement that only reads, before the rest. -/
theorem run_query_bind {answer : Row → A} {next : A → Transaction Row Error B} {row : Row} :
    (query answer >>= next).run row = (next (answer row)).run row := by
  rw [run_bind, run_query]
  rfl

/-- A statement that may fail, before the rest. -/
theorem run_execute_bind_ok {effect : Row → Except Error (Row × A)}
    {next : A → Transaction Row Error B} {row : Row} {result : Row × B} :
    (execute effect >>= next).run row = .ok result ↔
      ∃ middle a, effect row = .ok (middle, a) ∧ (next a).run middle = .ok result := by
  rw [run_bind_ok, run_execute]

end Transaction

/-- A transaction under way: its request, what it has written so far, and what is left of it. -/
structure Session (Key Request Row Error Result : Type) where
  key : Key
  request : Request
  wrote : Row → Row
  rest : Transaction Row Error Result

/-- The committed rows, who holds the lock of each, and the transactions under way. -/
structure System (Key Request Row Error Result : Type) where
  store : Key → Row
  locks : Key → Option Nat
  sessions : Nat → Option (Session Key Request Row Error Result)

/-- What a scheduler may do next. A crash abandons a transaction and releases its lock. -/
inductive Event (Key Request : Type) where
  | start (session : Nat) (key : Key) (request : Request)
  | advance (session : Nat)
  | crash (session : Nat)

namespace System

variable {Key Request Row Error Result : Type} [DecidableEq Key]

/-- No transaction under way. -/
def idle (store : Key → Row) : System Key Request Row Error Result where
  store := store
  locks _ := none
  sessions _ := none

/-- The end of a session, with its lock. -/
def release (system : System Key Request Row Error Result) (id : Nat)
    (session : Session Key Request Row Error Result) : System Key Request Row Error Result :=
  { system with
    locks := Function.update system.locks session.key none
    sessions := Function.update system.sessions id none }

/-- One statement of a session, its commit, or its failure. -/
def advance (system : System Key Request Row Error Result) (id : Nat)
    (session : Session Key Request Row Error Result) : System Key Request Row Error Result :=
  match session.rest with
  | .statement write next =>
      let row := session.wrote (system.store session.key)
      { system with
        sessions := Function.update system.sessions id
          (some { session with wrote := write ∘ session.wrote, rest := next row }) }
  | .done _ =>
      { system.release id session with
        store := Function.update system.store session.key
          (session.wrote (system.store session.key)) }
  | .fail _ => system.release id session

/-- One event. An event that is not enabled changes nothing: a start waits for the lock. -/
def step (program : Key → Request → Transaction Row Error Result)
    (system : System Key Request Row Error Result) :
    Event Key Request → System Key Request Row Error Result
  | .start id key request =>
      if (system.sessions id).isNone ∧ (system.locks key).isNone then
        { system with
          locks := Function.update system.locks key (some id)
          sessions := Function.update system.sessions id
            (some ⟨key, request, fun row => row, program key request⟩) }
      else system
  | .advance id => (system.sessions id).elim system (system.advance id)
  | .crash id => (system.sessions id).elim system (system.release id)

def run (program : Key → Request → Transaction Row Error Result)
    (system : System Key Request Row Error Result) (events : List (Event Key Request)) :
    System Key Request Row Error Result :=
  events.foldl (step program) system

/-- The request an event commits. -/
def commits (system : System Key Request Row Error Result) :
    Event Key Request → Option (Key × Request)
  | .advance id =>
      (system.sessions id).bind fun session =>
        match session.rest with
        | .done _ => some (session.key, session.request)
        | _ => none
  | _ => none

/-- Every request a run commits, in the order of the commits. -/
def committed (program : Key → Request → Transaction Row Error Result) :
    System Key Request Row Error Result → List (Event Key Request) → List (Key × Request)
  | _, [] => []
  | system, event :: rest =>
      (system.commits event).toList ++ committed program (system.step program event) rest

/-- A request run alone. One that fails leaves the store as it is. -/
def alone (program : Key → Request → Transaction Row Error Result) (store : Key → Row)
    (request : Key × Request) : Key → Row :=
  match (program request.1 request.2).run (store request.1) with
  | .ok (row, _) => Function.update store request.1 row
  | .error _ => store

/-- Each session holds the lock of its row, and goes on as its request would if it ran alone. -/
structure Held (program : Key → Request → Transaction Row Error Result)
    (system : System Key Request Row Error Result) : Prop where
  owns : ∀ {id session}, system.sessions id = some session → system.locks session.key = some id
  resumes : ∀ {id session}, system.sessions id = some session →
    (program session.key session.request).run (system.store session.key) =
      session.rest.run (session.wrote (system.store session.key))

section Serial

variable {program : Key → Request → Transaction Row Error Result}
  {system : System Key Request Row Error Result}

omit [DecidableEq Key] in
theorem held_idle (store : Key → Row) :
    Held program (idle store : System Key Request Row Error Result) where
  owns := nofun
  resumes := nofun

private theorem held_release (held : Held program system) {id : Nat}
    {session : Session Key Request Row Error Result} (mine : system.sessions id = some session)
    (store : Key → Row) (others : ∀ key, key ≠ session.key → store key = system.store key) :
    Held program { system.release id session with store := store } := by
  have apart {other : Nat} {their : Session Key Request Row Error Result}
      (found : Function.update system.sessions id none other = some their) :
      system.sessions other = some their ∧ their.key ≠ session.key := by
    by_cases same : other = id
    · subst same
      simp at found
    · rw [Function.update_of_ne same] at found
      refine ⟨found, fun shared => same ?_⟩
      have theirs := held.owns found
      rw [shared, held.owns mine] at theirs
      exact (Option.some.inj theirs).symm
  refine ⟨?_, ?_⟩
  · intro other their found
    obtain ⟨before, different⟩ := apart found
    show Function.update system.locks session.key none their.key = some other
    rw [Function.update_of_ne different]
    exact held.owns before
  · intro other their found
    obtain ⟨before, different⟩ := apart found
    show (program their.key their.request).run (store their.key) =
      their.rest.run (their.wrote (store their.key))
    rw [others _ different]
    exact held.resumes before

omit [DecidableEq Key] in
private theorem held_session (held : Held program system) {id : Nat}
    {session after : Session Key Request Row Error Result}
    (mine : system.sessions id = some session) (key : after.key = session.key)
    (request : after.request = session.request)
    (goesOn : session.rest.run (session.wrote (system.store session.key)) =
      after.rest.run (after.wrote (system.store session.key))) :
    Held program { system with sessions := Function.update system.sessions id (some after) } := by
  refine ⟨?_, ?_⟩
  all_goals
    intro other their found
    by_cases same : other = id
  · subst same
    simp only [Function.update_self, Option.some.injEq] at found
    subst found
    show system.locks after.key = some other
    rw [key]
    exact held.owns mine
  · have before : system.sessions other = some their := by
      simpa [Function.update_of_ne same] using found
    exact held.owns before
  · subst same
    simp only [Function.update_self, Option.some.injEq] at found
    subst found
    show (program after.key after.request).run (system.store after.key) = _
    rw [key, request, held.resumes mine]
    exact goesOn
  · have before : system.sessions other = some their := by
      simpa [Function.update_of_ne same] using found
    exact held.resumes before

private theorem held_start (held : Held program system) {id : Nat} {key : Key} {request : Request}
    (unlocked : system.locks key = none) :
    Held program
      { system with
        locks := Function.update system.locks key (some id)
        sessions := Function.update system.sessions id
          (some ⟨key, request, fun row => row, program key request⟩) } := by
  refine ⟨?_, ?_⟩
  all_goals
    intro other their found
    by_cases same : other = id
  · subst same
    simp only [Function.update_self, Option.some.injEq] at found
    subst found
    exact Function.update_self key (some other) system.locks
  · have before : system.sessions other = some their := by
      simpa [Function.update_of_ne same] using found
    have different : their.key ≠ key := by
      intro shared
      have locked := held.owns before
      rw [shared, unlocked] at locked
      cases locked
    show Function.update system.locks key (some id) their.key = some other
    rw [Function.update_of_ne different]
    exact held.owns before
  · subst same
    simp only [Function.update_self, Option.some.injEq] at found
    subst found
    rfl
  · have before : system.sessions other = some their := by
      simpa [Function.update_of_ne same] using found
    exact held.resumes before

/-- What one event does to the store: nothing, or what the request it commits does alone. -/
theorem step_serial (held : Held program system) (event : Event Key Request) :
    Held program (system.step program event) ∧
      (system.step program event).store =
        (system.commits event).elim system.store (alone program system.store) := by
  cases event with
  | start id key request =>
      simp only [step, commits, Option.elim_none]
      split
      · rename_i free
        exact ⟨held_start held (by simpa using free.2), rfl⟩
      · exact ⟨held, rfl⟩
  | crash id =>
      simp only [step, commits, Option.elim_none]
      cases mine : system.sessions id with
      | none => exact ⟨held, rfl⟩
      | some session => exact ⟨held_release held mine system.store fun _ _ => rfl, rfl⟩
  | advance id =>
      simp only [step, commits]
      cases mine : system.sessions id with
      | none => exact ⟨held, rfl⟩
      | some session =>
          have resumes := held.resumes mine
          simp only [Option.elim_some, Option.bind_some, advance]
          cases left : session.rest with
          | statement write next =>
              refine ⟨held_session held mine rfl rfl ?_, rfl⟩
              rw [left]
              rfl
          | fail error => exact ⟨held_release held mine system.store fun _ _ => rfl, rfl⟩
          | done result =>
              refine ⟨held_release held mine _ fun key different => ?_, ?_⟩
              · exact Function.update_of_ne different _ _
              · rw [left] at resumes
                simp only [Option.elim_some, alone, resumes, Transaction.run]

/-- What an event commits has run through. -/
theorem commits_runs (held : Held program system) {event : Event Key Request} {key : Key}
    {request : Request} (commit : system.commits event = some (key, request)) :
    ∃ result, (program key request).run (system.store key) =
      .ok ((system.step program event).store key, result) := by
  cases event with
  | start id key request => cases commit
  | crash id => cases commit
  | advance id =>
      simp only [commits, Option.bind_eq_some_iff] at commit
      obtain ⟨session, mine, finished⟩ := commit
      have resumes := held.resumes mine
      split at finished
      · rename_i result left
        cases finished
        rw [left] at resumes
        refine ⟨result, ?_⟩
        rw [resumes]
        simp [step, mine, advance, left, Transaction.run]
      · cases finished

/-- A row other than the one whose request an event commits is the same row after it. -/
theorem step_others (held : Held program system) {event : Event Key Request} {key : Key}
    (other : ∀ request, system.commits event ≠ some (key, request)) :
    (system.step program event).store key = system.store key := by
  rw [(step_serial held event).2]
  cases commit : system.commits event with
  | none => rfl
  | some pair =>
      have different : key ≠ pair.1 := by
        rintro rfl
        exact other pair.2 commit
      simp only [Option.elim_some, alone]
      cases (program pair.1 pair.2).run (system.store pair.1) with
      | error error => rfl
      | ok after => exact Function.update_of_ne different _ _

theorem held_run (held : Held program system) (events : List (Event Key Request)) :
    Held program (system.run program events) := by
  induction events generalizing system with
  | nil => exact held
  | cons event rest inductionHypothesis => exact inductionHypothesis (step_serial held event).1

/-- What holds of the store and the request of every commit of a run. -/
def Each (program : Key → Request → Transaction Row Error Result)
    (meets : Row → Request → Prop) :
    System Key Request Row Error Result → List (Event Key Request) → Prop
  | _, [] => True
  | system, event :: rest =>
      (∀ key request, system.commits event = some (key, request) →
        meets (system.store key) request) ∧ Each program meets (system.step program event) rest

theorem each_of_forall {meets : Row → Request → Prop} (always : ∀ row request, meets row request)
    (events : List (Event Key Request)) : Each program meets system events := by
  induction events generalizing system with
  | nil => trivial
  | cons event rest inductionHypothesis => exact ⟨fun _ _ _ => always _ _, inductionHypothesis⟩

theorem each_append {meets : Row → Request → Prop} {before after : List (Event Key Request)} :
    Each program meets system (before ++ after) ↔
      Each program meets system before ∧ Each program meets (system.run program before) after := by
  induction before generalizing system with
  | nil => simp [Each, run]
  | cons event rest inductionHypothesis =>
      simp only [List.cons_append, Each, inductionHypothesis, and_assoc]
      rfl

/-- What every commit keeps of a row, in the runs whose commits meet a condition, holds of every
row after such a run. -/
theorem run_invariant (meets : Row → Request → Prop) (invariant : Key → Row → Prop)
    (keeps : ∀ {key request row after result}, meets row request → invariant key row →
      (program key request).run row = .ok (after, result) → invariant key after)
    (held : Held program system) {events : List (Event Key Request)}
    (each : Each program meets system events) (begins : ∀ key, invariant key (system.store key)) :
    ∀ key, invariant key ((system.run program events).store key) := by
  induction events generalizing system with
  | nil => exact begins
  | cons event rest inductionHypothesis =>
      apply inductionHypothesis (step_serial held event).1 each.2
      intro key
      by_cases commit : ∃ request, system.commits event = some (key, request)
      · obtain ⟨request, commit⟩ := commit
        obtain ⟨result, ran⟩ := commits_runs held commit
        exact keeps (each.1 key request commit) (begins key) ran
      · rw [step_others held fun request found => commit ⟨request, found⟩]
        exact begins key

/-- What every commit moves a row along, from rows where an invariant holds, relates the rows
before a run to those after it. -/
theorem run_related (invariant : Key → Row → Prop) (related : Key → Row → Row → Prop)
    (keeps : ∀ {key request row after result}, invariant key row →
      (program key request).run row = .ok (after, result) →
        invariant key after ∧ related key row after)
    (refl : ∀ key row, related key row row)
    (trans : ∀ {key first second third}, related key first second → related key second third →
      related key first third)
    (held : Held program system) (events : List (Event Key Request))
    (begins : ∀ key, invariant key (system.store key)) :
    ∀ key, related key (system.store key) ((system.run program events).store key) := by
  induction events generalizing system with
  | nil => exact fun key => refl key _
  | cons event rest inductionHypothesis =>
      have oneStep (key : Key) : invariant key ((system.step program event).store key) ∧
          related key (system.store key) ((system.step program event).store key) := by
        by_cases commit : ∃ request, system.commits event = some (key, request)
        · obtain ⟨request, commit⟩ := commit
          obtain ⟨result, ran⟩ := commits_runs held commit
          exact keeps (begins key) ran
        · rw [step_others held fun request found => commit ⟨request, found⟩]
          exact ⟨begins key, refl key _⟩
      have later := inductionHypothesis (step_serial held event).1 fun key => (oneStep key).1
      exact fun key => trans (oneStep key).2 (later key)

/-! ### The history of a row -/

/-- Requests that lead from one row to another, each run alone and through. -/
inductive Runs (program : Key → Request → Transaction Row Error Result) (key : Key) :
    Row → List Request → Row → Prop where
  | unchanged (row : Row) : Runs program key row [] row
  | commit {row middle after : Row} {request : Request} {rest : List Request} {result : Result}
      (ran : (program key request).run row = .ok (middle, result))
      (later : Runs program key middle rest after) : Runs program key row (request :: rest) after

/-- The requests a run commits on one row, in the order of the commits. -/
def committedOn (program : Key → Request → Transaction Row Error Result) (key : Key)
    (system : System Key Request Row Error Result) (events : List (Event Key Request)) :
    List Request :=
  (committed program system events).filterMap fun commit =>
    if commit.1 = key then some commit.2 else none

/-- The commits of a run on one row lead from what it was to what it is. -/
theorem run_runs (held : Held program system) (events : List (Event Key Request)) (key : Key) :
    Runs program key (system.store key) (committedOn program key system events)
      ((system.run program events).store key) := by
  induction events generalizing system with
  | nil => exact .unchanged _
  | cons event rest inductionHypothesis =>
      have later := inductionHypothesis (step_serial held event).1
      unfold committedOn committed
      rw [List.filterMap_append]
      cases commit : system.commits event with
      | none =>
          rw [step_others held (by simp [commit])] at later
          exact later
      | some pair =>
          by_cases mine : pair.1 = key
          · obtain ⟨result, ran⟩ :=
              commits_runs held (commit : system.commits event = some (pair.1, pair.2))
            rw [mine] at ran
            simp only [Option.toList_some, List.filterMap_cons, if_pos mine, List.filterMap_nil,
              List.cons_append, List.nil_append]
            exact .commit ran later
          · have other : ∀ request, system.commits event ≠ some (key, request) := by
              intro request found
              rw [commit] at found
              exact mine (congrArg Prod.fst (Option.some.inj found))
            rw [step_others held other] at later
            simp only [Option.toList_some, List.filterMap_cons, if_neg mine, List.filterMap_nil,
              List.nil_append]
            exact later

end Serial

end System

end Assaybank.Library
