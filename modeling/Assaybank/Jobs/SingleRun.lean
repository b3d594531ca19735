import Assaybank.Jobs.Idempotency

/-!
Owns what holds of every interleaving of calls to `idempotent` with one key.

Contract: the guarded function returns at most once, every call that succeeds answers with what it
returned or with the value read back from its record, and while it has not returned a later call runs
it again (`runs_once`).
-/

namespace Assaybank.Jobs.Idempotency

open Assaybank.Runtime Assaybank.Library

variable {Error : Type}

/-- A result that JSON can represent: its record is read back. -/
def Representable (result : JsValue) : Prop :=
  (reviveRecord (recordText result)).isSome

/-- Every result the guarded function returns is one that JSON can represent. -/
def Represented (events : List (Event Error)) : Prop :=
  ∀ execution result, .returns execution result ∈ events → Representable result

/-- A record is read back as the plain value it was written of. -/
theorem reviveRecord_recordText {result : JsValue}
    (plain : ∀ value, result = some value → isPlain value = true) :
    reviveRecord (recordText result) = some result := by
  cases result with
  | none => rfl
  | some value =>
      have whole : isPlain (.object [(js "v", value)]) = true := by
        rw [isPlain, plainMembers, plainMembers, plain value rfl]
        rfl
      have read : parseJson (recordText (some value)) = some (.object [(js "v", value)]) :=
        parseJson_jsonText whole
      rw [reviveRecord, read]
      rfl

theorem representable_of_plain {result : JsValue}
    (plain : ∀ value, result = some value → isPlain value = true) : Representable result := by
  rw [Representable, reviveRecord_recordText plain]
  rfl

/-- A value that an execution may settle with: what the guarded function returned, or what its decoder
makes of the value read back from the record. -/
def FromRun (completed : List JsValue) (decode : Decoder Error) (value : JsValue) : Prop :=
  ∃ result ∈ completed, value = result ∨
    ∃ revived, reviveRecord (recordText result) = some revived ∧
      decodeRecorded revived decode = .ok value

/-- What is asked of a world that `initial` was the record of. -/
structure RunsOnce (initial : Option JsString) (world : World Error) : Prop where
  once : world.completed.length ≤ 1
  answers : ∀ id call value, world.calls id = some call → call.returned = some (.ok value) →
    ∃ run, world.executions call.execution = some run ∧
      FromRun world.completed run.decode value
  noRecord : world.completed = [] → world.store = initial
  noLeak : (∀ id call, world.calls id = some call → call.returned.isSome) → world.inFlight = none
  again : world.completed = [] → world.inFlight = none → ∀ id decode, world.calls id = none →
    (world.run [.call id decode, .readStore world.started, .resumeRead world.started]).executions
      world.started = some ⟨decode, .running⟩

/-! ### The invariant -/

/-- What a phase says of the record and of what was returned. -/
def PhaseHolds (store : Option JsString) (completed : List JsValue) (decode : Decoder Error) :
    Phase Error → Prop
  | .reading => True
  | .read raw => raw = store
  | .running => completed = []
  | .recording result => completed = [result]
  | .recorded result => completed = [result] ∧ store = some (recordText result)
  | .settled (.ok value) => FromRun completed decode value
  | .settled (.error _) => True

structure Consistent (initial : Option JsString) (world : World Error) : Prop where
  unstarted : ∀ execution, world.started ≤ execution → world.executions execution = none
  settled : ∀ execution run, world.executions execution = some run →
    world.inFlight ≠ some execution → run.phase.outcome?.isSome
  owned : ∀ execution, world.inFlight = some execution →
    (∃ run, world.executions execution = some run) ∧
      ∃ id call, world.calls id = some call ∧ call.execution = execution ∧ call.owner = true ∧
        call.returned = none
  owners : ∀ id call, world.calls id = some call → call.owner = true → call.returned = none →
    world.inFlight = some call.execution
  made : ∀ id call, world.calls id = some call →
    ∃ run, world.executions call.execution = some run
  sole : ∀ id other call its, world.calls id = some call → world.calls other = some its →
    call.owner = true → its.owner = true → call.execution = its.execution → id = other
  once : world.completed.length ≤ 1
  noRecord : world.completed = [] → world.store = initial
  phases : ∀ execution run, world.executions execution = some run →
    PhaseHolds world.store world.completed run.decode run.phase
  kept : ∀ result ∈ world.completed, world.store = some (recordText result) ∨
    ∃ execution run, world.executions execution = some run ∧ run.phase = .recording result
  returned : ∀ id call outcome, world.calls id = some call → call.returned = some outcome →
    ∃ run, world.executions call.execution = some run ∧ run.phase = .settled outcome
  representable : ∀ result ∈ world.completed, Representable result

section Steps

variable {initial : Option JsString} {world : World Error}

theorem consistent_initial (initial : Option JsString) :
    Consistent initial (World.initial initial : World Error) where
  unstarted _ _ := rfl
  settled := nofun
  owned := nofun
  owners := nofun
  made := nofun
  sole := nofun
  once := Nat.zero_le _
  noRecord _ := rfl
  phases := nofun
  kept := nofun
  returned := nofun
  representable := nofun

/-- An execution that has not settled is the one in flight. -/
theorem Consistent.inFlight (consistent : Consistent initial world) {execution : Nat}
    {run : Execution Error} (there : world.executions execution = some run)
    (unsettled : run.phase.outcome? = none) : world.inFlight = some execution := by
  by_contra other
  have done := consistent.settled execution run there other
  rw [unsettled] at done
  cases done

/-- Every other execution has settled. -/
theorem Consistent.others (consistent : Consistent initial world) {execution other : Nat}
    {run : Execution Error} (flight : world.inFlight = some execution) (different : other ≠ execution)
    (there : world.executions other = some run) : ∃ outcome, run.phase = .settled outcome := by
  have done := consistent.settled other run there fun same => by
    rw [flight] at same
    exact different (Option.some.inj same).symm
  cases phase : run.phase with
  | settled outcome => exact ⟨outcome, rfl⟩
  | _ =>
      rw [phase] at done
      cases done

/-- What has settled stays right when more is returned. -/
theorem phaseHolds_of_settled {store after : Option JsString} {completed more : List JsValue}
    {decode : Decoder Error} {outcome : Except Error JsValue}
    (grows : ∀ result ∈ completed, result ∈ more)
    (holds : PhaseHolds store completed decode (.settled outcome)) :
    PhaseHolds after more decode (.settled outcome) := by
  cases outcome with
  | error error => trivial
  | ok value =>
      obtain ⟨result, inside, source⟩ := holds
      exact ⟨result, grows result inside, source⟩

/-- What is asked for the execution in flight to go on to another phase, with the store and the results
that it leaves. -/
theorem Consistent.advance (consistent : Consistent initial world) {execution : Nat}
    {run : Execution Error} (there : world.executions execution = some run)
    (unsettled : run.phase.outcome? = none) (phase : Phase Error) (store : Option JsString)
    (completed : List JsValue) (grows : ∀ result ∈ world.completed, result ∈ completed)
    (once : completed.length ≤ 1) (noRecord : completed = [] → store = initial)
    (holds : PhaseHolds store completed run.decode phase)
    (kept : ∀ result ∈ completed, store = some (recordText result) ∨ phase = .recording result)
    (representable : ∀ result ∈ completed, Representable result) :
    Consistent initial
      { world.advance execution run phase with store := store, completed := completed } := by
  have flight := consistent.inFlight there unsettled
  have found (other : Nat) {its : Execution Error}
      (mine : Function.update world.executions execution (some { run with phase := phase }) other =
        some its) :
      (other = execution ∧ its = { run with phase := phase }) ∨
        (other ≠ execution ∧ world.executions other = some its) := by
    by_cases same : other = execution
    · subst same
      rw [Function.update_self] at mine
      exact .inl ⟨rfl, (Option.some.inj mine).symm⟩
    · rw [Function.update_of_ne same] at mine
      exact .inr ⟨same, mine⟩
  refine ⟨?_, ?_, ?_, consistent.owners, ?_, consistent.sole, once, noRecord, ?_, ?_, ?_,
    representable⟩
  · intro other late
    have different : other ≠ execution := by
      intro same
      rw [same] at late
      rw [consistent.unstarted execution late] at there
      cases there
    show Function.update world.executions execution _ other = none
    rw [Function.update_of_ne different]
    exact consistent.unstarted other late
  · intro other its mine elsewhere
    rcases found other mine with ⟨rfl, _⟩ | ⟨_, before⟩
    · exact absurd flight elsewhere
    · exact consistent.settled other its before elsewhere
  · intro other inFlight
    cases flight.symm.trans inFlight
    refine ⟨⟨_, Function.update_self ..⟩, (consistent.owned execution flight).2⟩
  · intro id call called
    obtain ⟨its, before⟩ := consistent.made id call called
    by_cases here : call.execution = execution
    · rw [here]
      exact ⟨_, Function.update_self ..⟩
    · exact ⟨its, (Function.update_of_ne here _ _).trans before⟩
  · intro other its mine
    rcases found other mine with ⟨_, rfl⟩ | ⟨different, before⟩
    · exact holds
    · obtain ⟨outcome, same⟩ := consistent.others flight different before
      have former := consistent.phases other its before
      rw [same] at former ⊢
      exact phaseHolds_of_settled grows former
  · intro result inside
    rcases kept result inside with written | recording
    · exact .inl written
    · exact .inr ⟨execution, _, Function.update_self .., recording⟩
  · intro id call outcome called answered
    obtain ⟨its, before, done⟩ := consistent.returned id call outcome called answered
    have different : call.execution ≠ execution := by
      intro same
      rw [same, there] at before
      cases before
      rw [done] at unsettled
      cases unsettled
    exact ⟨its, (Function.update_of_ne different _ _).trans before, done⟩

/-- While the execution in flight is not at the write of a result, the record holds what was
returned. -/
theorem Consistent.written (consistent : Consistent initial world) {execution : Nat}
    {run : Execution Error} (there : world.executions execution = some run)
    (unsettled : run.phase.outcome? = none) (elsewhere : ∀ result, run.phase ≠ .recording result) :
    ∀ result ∈ world.completed, world.store = some (recordText result) := by
  intro result inside
  rcases consistent.kept result inside with written | ⟨other, its, found, recording⟩
  · exact written
  · have flight := consistent.inFlight there unsettled
    have alsoFlight := consistent.inFlight found (by rw [recording]; rfl)
    cases flight.symm.trans alsoFlight
    cases there.symm.trans found
    exact absurd recording (elsewhere result)

/-- The execution in flight goes on, and leaves the record and what was returned. -/
theorem Consistent.keep (consistent : Consistent initial world) {execution : Nat}
    {run : Execution Error} (there : world.executions execution = some run)
    (unsettled : run.phase.outcome? = none) (elsewhere : ∀ result, run.phase ≠ .recording result)
    {phase : Phase Error} (holds : PhaseHolds world.store world.completed run.decode phase) :
    Consistent initial (world.advance execution run phase) :=
  consistent.advance there unsettled phase world.store world.completed (fun _ inside => inside)
    consistent.once consistent.noRecord holds
    (fun result inside => .inl (consistent.written there unsettled elsewhere result inside))
    consistent.representable

/-- An execution that read the record settles with it, or runs the guarded function. -/
private theorem Consistent.resumeRead (consistent : Consistent initial world)
    (unreadable : initial.bind reviveRecord = none) {execution : Nat} {run : Execution Error}
    (there : world.executions execution = some run) {raw : Option JsString}
    (phase : run.phase = .read raw) :
    Consistent initial
      (match raw.bind reviveRecord with
      | some value => world.advance execution run (.settled (decodeRecorded value run.decode))
      | none => world.advance execution run .running) := by
  have unsettled : run.phase.outcome? = none := by rw [phase]; rfl
  have elsewhere : ∀ result, run.phase ≠ .recording result := by rw [phase]; exact nofun
  have written := consistent.written there unsettled elsewhere
  have holds := consistent.phases execution run there
  rw [phase] at holds
  have read : raw = world.store := holds
  split
  · rename_i value revived
    apply consistent.keep there unsettled elsewhere
    cases decoded : decodeRecorded value run.decode with
    | error error => trivial
    | ok answer =>
        cases returned : world.completed with
        | nil =>
            rw [read, consistent.noRecord returned, unreadable] at revived
            cases revived
        | cons result rest =>
            have inside : result ∈ world.completed := returned ▸ List.mem_cons_self
            rw [read, written result inside] at revived
            exact ⟨result, returned ▸ inside, .inr ⟨value, revived, decoded⟩⟩
  · rename_i absent
    apply consistent.keep there unsettled elsewhere
    show world.completed = []
    apply List.eq_nil_iff_forall_not_mem.mpr
    intro result inside
    have readable := consistent.representable result inside
    rw [read, written result inside] at absent
    rw [Representable, show reviveRecord (recordText result) = none from absent] at readable
    cases readable

/-- One event of an execution. -/
theorem Consistent.progress (consistent : Consistent initial world)
    (unreadable : initial.bind reviveRecord = none) {execution : Nat} {run : Execution Error}
    (there : world.executions execution = some run) (event : Event Error)
    (represented : ∀ execution result, event = .returns execution result →
      Representable result) :
    Consistent initial (world.progress execution run event run.phase) := by
  have holds := consistent.phases execution run there
  unfold World.progress
  split
  · rename_i phase
    exact consistent.keep there (by rw [phase]; rfl) (by rw [phase]; exact nofun) rfl
  · rename_i phase
    exact consistent.keep there (by rw [phase]; rfl) (by rw [phase]; exact nofun) trivial
  · rename_i raw phase
    exact consistent.resumeRead unreadable there phase
  · rename_i result phase
    rw [phase] at holds
    have none : world.completed = [] := holds
    rw [none, List.nil_append]
    refine consistent.advance there (by rw [phase]; rfl) (.recording result) world.store [result]
      ?_ (le_refl 1) nofun rfl ?_ ?_
    · rw [none]
      exact nofun
    · intro other inside
      rw [List.mem_singleton.mp inside]
      exact .inr rfl
    · intro other inside
      rw [List.mem_singleton.mp inside]
      exact represented _ _ rfl
  · rename_i phase
    exact consistent.keep there (by rw [phase]; rfl) (by rw [phase]; exact nofun) trivial
  · rename_i result phase
    rw [phase] at holds
    have only : world.completed = [result] := holds
    refine consistent.advance there (by rw [phase]; rfl) (.recorded result) (some (recordText result))
      world.completed (fun _ inside => inside) consistent.once ?_ ⟨only, rfl⟩ ?_
      consistent.representable
    · intro none
      have both : [result] = [] := only.symm.trans none
      cases both
    · intro other inside
      rw [only] at inside
      rw [List.mem_singleton.mp inside]
      exact .inl rfl
  · rename_i result phase
    rw [phase] at holds
    obtain ⟨only, _⟩ : world.completed = [result] ∧ world.store = some (recordText result) := holds
    apply consistent.keep there (by rw [phase]; rfl) (by rw [phase]; exact nofun)
    exact ⟨result, only ▸ List.mem_singleton_self result, .inl rfl⟩
  · exact consistent

/-- A call that joins the execution in flight. -/
private theorem Consistent.join (consistent : Consistent initial world) {id pending : Nat}
    (fresh : world.calls id = none) (flight : world.inFlight = some pending) :
    Consistent initial
      { world with calls := Function.update world.calls id (some ⟨pending, false, none⟩) } := by
  refine ⟨consistent.unstarted, consistent.settled, ?_, ?_, ?_, ?_, consistent.once,
    consistent.noRecord, consistent.phases, consistent.kept, ?_, consistent.representable⟩
  · intro execution flight
    obtain ⟨there, owner, call, called, mine⟩ := consistent.owned execution flight
    refine ⟨there, owner, call, ?_, mine⟩
    have different : owner ≠ id := by
      intro same
      rw [same, fresh] at called
      cases called
    exact (Function.update_of_ne different _ _).trans called
  · intro other call called owner waits
    rcases update_eq_some called with ⟨_, ⟨⟩⟩ | ⟨_, before⟩
    · cases owner
    · exact consistent.owners other call before owner waits
  · intro other call called
    rcases update_eq_some called with ⟨_, ⟨⟩⟩ | ⟨_, before⟩
    · exact (consistent.owned pending flight).1
    · exact consistent.made other call before
  · intro first second call its called alsoCalled owner alsoOwner same
    rcases update_eq_some called with ⟨_, ⟨⟩⟩ | ⟨_, before⟩
    · cases owner
    · rcases update_eq_some alsoCalled with ⟨_, ⟨⟩⟩ | ⟨_, alsoBefore⟩
      · cases alsoOwner
      · exact consistent.sole first second call its before alsoBefore owner alsoOwner same
  · intro other call outcome called answered
    rcases update_eq_some called with ⟨_, ⟨⟩⟩ | ⟨_, before⟩
    · cases answered
    · exact consistent.returned other call outcome before answered

/-- A call that starts an execution. -/
private theorem Consistent.start (consistent : Consistent initial world) (id : Nat)
    (idle : world.inFlight = none) (decode : Decoder Error) :
    Consistent initial
      { world with
        inFlight := some world.started
        executions := Function.update world.executions world.started (some ⟨decode, .reading⟩)
        started := world.started + 1
        calls := Function.update world.calls id (some ⟨world.started, true, none⟩) } := by
  have unused := consistent.unstarted world.started (le_refl _)
  have old {execution : Nat} {run : Execution Error}
      (there : world.executions execution = some run) : execution ≠ world.started := by
    intro same
    rw [same, unused] at there
    cases there
  refine ⟨?_, ?_, ?_, ?_, ?_, ?_, consistent.once, consistent.noRecord, ?_, ?_, ?_,
    consistent.representable⟩
  · intro execution late
    have beyond : world.started < execution := late
    exact (Function.update_of_ne (ne_of_gt beyond) _ _).trans
      (consistent.unstarted execution (le_of_lt beyond))
  · intro execution run there elsewhere
    rcases update_eq_some there with ⟨rfl, _⟩ | ⟨_, before⟩
    · exact absurd rfl elsewhere
    · apply consistent.settled execution run before
      rw [idle]
      exact nofun
  · intro execution flight
    cases flight
    exact ⟨⟨_, Function.update_self ..⟩, id, _, Function.update_self .., rfl, rfl, rfl⟩
  · intro other call called owner waits
    rcases update_eq_some called with ⟨_, ⟨⟩⟩ | ⟨_, before⟩
    · rfl
    · have flight := consistent.owners other call before owner waits
      rw [idle] at flight
      cases flight
  · intro other call called
    rcases update_eq_some called with ⟨_, ⟨⟩⟩ | ⟨_, before⟩
    · exact ⟨_, Function.update_self ..⟩
    · obtain ⟨run, there⟩ := consistent.made other call before
      exact ⟨run, (Function.update_of_ne (old there) _ _).trans there⟩
  · intro first second call its called alsoCalled owner alsoOwner same
    rcases update_eq_some called with ⟨here, ⟨⟩⟩ | ⟨_, before⟩
    · rcases update_eq_some alsoCalled with ⟨alsoHere, ⟨⟩⟩ | ⟨_, alsoBefore⟩
      · exact here.trans alsoHere.symm
      · obtain ⟨run, there⟩ := consistent.made second its alsoBefore
        exact absurd same.symm (old there)
    · obtain ⟨run, there⟩ := consistent.made first call before
      rcases update_eq_some alsoCalled with ⟨_, ⟨⟩⟩ | ⟨_, alsoBefore⟩
      · exact absurd same (old there)
      · exact consistent.sole first second call its before alsoBefore owner alsoOwner same
  · intro execution run there
    rcases update_eq_some there with ⟨_, ⟨⟩⟩ | ⟨_, before⟩
    · trivial
    · exact consistent.phases execution run before
  · intro result inside
    rcases consistent.kept result inside with written | ⟨execution, run, there, recording⟩
    · exact .inl written
    · exact .inr ⟨execution, run, (Function.update_of_ne (old there) _ _).trans there, recording⟩
  · intro other call outcome called answered
    rcases update_eq_some called with ⟨_, ⟨⟩⟩ | ⟨_, before⟩
    · cases answered
    · obtain ⟨run, there, done⟩ := consistent.returned other call outcome before answered
      exact ⟨run, (Function.update_of_ne (old there) _ _).trans there, done⟩

theorem answer?_eq_some {call : Call Error} {outcome : Except Error JsValue}
    (answer : world.answer? call = some outcome) :
    call.returned = none ∧
      ∃ run, world.executions call.execution = some run ∧ run.phase = .settled outcome := by
  unfold World.answer? at answer
  split at answer
  · cases answer
  · rename_i waits
    refine ⟨Option.not_isSome_iff_eq_none.mp waits, ?_⟩
    obtain ⟨run, there, done⟩ := Option.bind_eq_some_iff.mp answer
    refine ⟨run, there, ?_⟩
    cases phase : run.phase with
    | settled found =>
        rw [phase] at done
        cases done
        rfl
    | _ =>
        rw [phase] at done
        cases done

/-- A call returns what its execution settled with, and clears the promise if it is its own. -/
private theorem Consistent.finish (consistent : Consistent initial world) {id : Nat}
    {call : Call Error} {outcome : Except Error JsValue} (called : world.calls id = some call)
    (answer : world.answer? call = some outcome) :
    Consistent initial (world.finish id call outcome) := by
  obtain ⟨waits, run, there, done⟩ := answer?_eq_some answer
  have cleared {execution : Nat}
      (flight : (if call.owner then none else world.inFlight) = some execution) :
      call.owner = false ∧ world.inFlight = some execution := by
    cases mine : call.owner with
    | true =>
        rw [mine] at flight
        cases flight
    | false =>
        rw [mine] at flight
        exact ⟨rfl, flight⟩
  refine ⟨consistent.unstarted, ?_, ?_, ?_, ?_, ?_, consistent.once, consistent.noRecord,
    consistent.phases, consistent.kept, ?_, consistent.representable⟩
  · intro execution other found elsewhere
    by_cases here : execution = call.execution
    · have found : world.executions execution = some other := found
      rw [here, there] at found
      cases found
      rw [done]
      rfl
    · apply consistent.settled execution other found
      intro flight
      apply elsewhere
      show (if call.owner then none else world.inFlight) = some execution
      cases mine : call.owner with
      | false => exact flight
      | true =>
          have own := consistent.owners id call called mine waits
          rw [flight] at own
          exact absurd (Option.some.inj own) here
  · intro execution flight
    obtain ⟨notOwner, before⟩ := cleared flight
    obtain ⟨found, owner, its, ownerCalled, same, owns, open'⟩ := consistent.owned execution before
    refine ⟨found, owner, its, ?_, same, owns, open'⟩
    have different : owner ≠ id := by
      intro alike
      rw [alike, called] at ownerCalled
      cases ownerCalled
      rw [notOwner] at owns
      cases owns
    exact (Function.update_of_ne different _ _).trans ownerCalled
  · intro other its otherCalled owns open'
    show (if call.owner then none else world.inFlight) = some its.execution
    rcases update_eq_some otherCalled with ⟨_, ⟨⟩⟩ | ⟨different, before⟩
    · cases open'
    · have flight := consistent.owners other its before owns open'
      cases mine : call.owner with
      | false => exact flight
      | true =>
          have own := consistent.owners id call called mine waits
          exact absurd (consistent.sole other id its call before called owns mine
            (Option.some.inj (flight.symm.trans own))) different
  · intro other its otherCalled
    rcases update_eq_some otherCalled with ⟨_, ⟨⟩⟩ | ⟨_, before⟩
    · exact ⟨run, there⟩
    · exact consistent.made other its before
  · intro first second its others firstCalled secondCalled owns alsoOwns same
    rcases update_eq_some firstCalled with ⟨rfl, ⟨⟩⟩ | ⟨_, before⟩
    · rcases update_eq_some secondCalled with ⟨rfl, _⟩ | ⟨_, alsoBefore⟩
      · rfl
      · exact consistent.sole _ second call others called alsoBefore owns alsoOwns same
    · rcases update_eq_some secondCalled with ⟨rfl, ⟨⟩⟩ | ⟨_, alsoBefore⟩
      · exact consistent.sole first _ its call before called owns alsoOwns same
      · exact consistent.sole first second its others before alsoBefore owns alsoOwns same
  · intro other its result otherCalled answered
    rcases update_eq_some otherCalled with ⟨_, ⟨⟩⟩ | ⟨_, before⟩
    · cases answered
      exact ⟨run, there, done⟩
    · exact consistent.returned other its result before answered

theorem Consistent.step (consistent : Consistent initial world)
    (unreadable : initial.bind reviveRecord = none) (event : Event Error)
    (represented : ∀ execution result, event = .returns execution result →
      Representable result) :
    Consistent initial (world.step event) := by
  have execution : Consistent initial
      (event.execution?.elim world fun execution =>
        (world.executions execution).elim world fun run =>
          world.progress execution run event run.phase) := by
    cases event.execution? with
    | none => exact consistent
    | some execution =>
        cases there : world.executions execution with
        | none =>
            rw [Option.elim_some, there]
            exact consistent
        | some run =>
            rw [Option.elim_some, there]
            exact consistent.progress unreadable there event represented
  cases event with
  | call id decode =>
      show Consistent initial
        (if (world.calls id).isSome then world else world.idempotent id decode)
      split
      · exact consistent
      · rename_i unused
        have fresh := Option.not_isSome_iff_eq_none.mp unused
        unfold World.idempotent
        split
        · rename_i pending flight
          exact consistent.join fresh flight
        · rename_i idle
          exact consistent.start id idle decode
  | resumeCall id =>
      show Consistent initial ((world.calls id).elim world fun call =>
        (world.answer? call).elim world fun outcome => world.finish id call outcome)
      cases called : world.calls id with
      | none => exact consistent
      | some call =>
          rw [Option.elim_some]
          cases answer : world.answer? call with
          | none => exact consistent
          | some outcome => exact consistent.finish called answer
  | _ => exact execution

theorem Consistent.run (consistent : Consistent initial world)
    (unreadable : initial.bind reviveRecord = none) {events : List (Event Error)}
    (represented : Represented events) :
    Consistent initial (world.run events) := by
  induction events generalizing world with
  | nil => exact consistent
  | cons event rest inductionHypothesis =>
      apply inductionHypothesis
      · apply consistent.step unreadable
        intro execution result same
        exact represented execution result (same ▸ List.mem_cons_self)
      · intro execution result inside
        exact represented execution result (List.mem_cons_of_mem _ inside)

/-- A call that nothing is in flight for reads the record, and runs the guarded function when it cannot
be read. -/
private theorem runs_again (unreadable : world.store.bind reviveRecord = none)
    (idle : world.inFlight = none) {id : Nat} (fresh : world.calls id = none)
    (decode : Decoder Error) :
    (world.run [.call id decode, .readStore world.started, .resumeRead world.started]).executions
      world.started = some ⟨decode, .running⟩ := by
  simp [World.run, World.step, World.idempotent, fresh, idle, Event.execution?, World.progress,
    World.advance, unreadable]

theorem Consistent.runsOnce (consistent : Consistent initial world)
    (unreadable : initial.bind reviveRecord = none) : RunsOnce initial world where
  once := consistent.once
  noRecord := consistent.noRecord
  answers := by
    intro id call value called answered
    obtain ⟨run, there, done⟩ := consistent.returned id call _ called answered
    have holds := consistent.phases call.execution run there
    rw [done] at holds
    exact ⟨run, there, holds⟩
  noLeak := by
    intro all
    cases flight : world.inFlight with
    | none => rfl
    | some execution =>
        obtain ⟨_, id, call, called, _, _, waits⟩ := consistent.owned execution flight
        have returned := all id call called
        rw [waits] at returned
        cases returned
  again := by
    intro none idle id decode fresh
    apply runs_again _ idle fresh
    rw [consistent.noRecord none]
    exact unreadable

end Steps

/-! ### Every interleaving -/

/-- In every interleaving of calls with one key, the guarded function returns at most once, every call
that succeeds answers with what it returned, up to the record, and a run that throws leaves no record,
so that a later call runs it again. -/
theorem runs_once (initial : Option JsString)
    (unreadable : initial.bind reviveRecord = none) (events : List (Event Error))
    (represented : Represented events) :
    RunsOnce initial ((World.initial initial : World Error).run events) :=
  ((consistent_initial initial).run unreadable represented).runsOnce unreadable

/-- Two calls share an execution, and a third is answered from its record. -/
theorem runs_once_example :
    RunsOnce none ((World.initial none : World Unit).run
      [.call 0 none, .call 1 none, .readStore 0, .resumeRead 0, .returns 0 (some (.bool true)),
        .writeStore 0, .resumeWrite 0, .resumeCall 0, .resumeCall 1, .call 2 none, .readStore 1,
        .resumeRead 1, .resumeCall 2]) := by
  apply runs_once none rfl
  intro execution result inside
  simp only [List.mem_cons, reduceCtorEq, false_or, Event.returns.injEq, List.not_mem_nil, or_false]
    at inside
  rw [inside.2]
  apply representable_of_plain
  rintro _ ⟨⟩
  rfl

end Assaybank.Jobs.Idempotency
