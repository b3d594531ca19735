import Mathlib.Algebra.Order.Group.Defs
import Mathlib.Data.List.Chain
import Mathlib.Tactic.Abel
import Mathlib.Tactic.GCongr

/-!
Owns publishers that let one message through in an interval and keep only the newest of those that
wait.

Contract: a run in which no message is let through while another waits publishes messages an interval
apart and in the order they were offered, and the newest is published or waits under an armed timer
(`orderly_run`).
-/

namespace Assaybank.Library.Coalescer

/-- When a message was last published, the one that waits, and when the armed timer is due. -/
structure State (Time Message : Type) where
  lastEmittedAt : Option Time
  pending : Option Message
  due : Option Time

structure Emission (Time Message : Type) where
  time : Time
  message : Message
deriving DecidableEq

/-- What can happen to a publisher. An offer reads the clock twice: for what has elapsed, and when it
publishes or arms the timer. -/
inductive Event (Time Message : Type) where
  | offer (read acted : Time) (message : Message)
  | fire (now : Time)
  | clear

section Steps

variable {State Event Out : Type}

/-- A run of a machine: the state it ends in, and what it gave out. -/
def runFrom (step : State → Event → State × Option Out) (state : State) :
    List Event → State × List Out
  | [] => (state, [])
  | event :: rest =>
      let (next, out) := step state event
      let (last, later) := runFrom step next rest
      (last, out.toList ++ later)

/-- A condition on every event of a run and the state it meets. -/
def Along (step : State → Event → State × Option Out) (meets : State → Event → Prop) :
    State → List Event → Prop
  | _, [] => True
  | state, event :: rest => meets state event ∧ Along step meets (step state event).1 rest

instance decidableAlong (step : State → Event → State × Option Out) (meets : State → Event → Prop)
    [∀ state event, Decidable (meets state event)] :
    (state : State) → (events : List Event) → Decidable (Along step meets state events)
  | _, [] => .isTrue trivial
  | state, event :: rest =>
      have := decidableAlong step meets (step state event).1 rest
      inferInstanceAs (Decidable (meets state event ∧ Along step meets (step state event).1 rest))

end Steps

section Machine

variable {Time Message : Type}

def fresh : State Time Message := ⟨none, none, none⟩

variable [AddCommGroup Time] [LinearOrder Time] (interval : Time)

/-- Whether the interval has passed. -/
def State.isOpen (state : State Time Message) (now : Time) : Bool :=
  state.lastEmittedAt.all fun last => decide (interval ≤ now - last)

def State.step (state : State Time Message) :
    Event Time Message → State Time Message × Option (Emission Time Message)
  | .offer read acted message =>
      if state.isOpen interval read then
        ({ state with lastEmittedAt := some acted }, some ⟨acted, message⟩)
      else
        ({ state with
            pending := some message
            due := state.due <|>
              state.lastEmittedAt.map fun last => acted + (interval - (read - last)) }, none)
  | .fire now =>
      if state.due.isSome then
        state.pending.elim ({ state with due := none }, none)
          fun message => (⟨some now, none, none⟩, some ⟨now, message⟩)
      else (state, none)
  | .clear => ({ state with pending := none, due := none }, none)

def State.run : State Time Message → List (Event Time Message) →
    State Time Message × List (Emission Time Message) :=
  runFrom (State.step interval)

end Machine

/-! ### What is asked of a run -/

section Conditions

variable {Time Message : Type}

def Event.message? : Event Time Message → Option Message
  | .offer _ _ message => some message
  | _ => none

/-- The messages a run offers, in their order. -/
def offers (events : List (Event Time Message)) : List Message := events.filterMap Event.message?

/-- The message offered last, unless it was cleared since. -/
def Event.newest (former : Option Message) : Event Time Message → Option Message
  | .offer _ _ message => some message
  | .fire _ => former
  | .clear => none

def latest (events : List (Event Time Message)) : Option Message := events.foldl Event.newest none

variable [LinearOrder Time]

/-- The clock does not go back in a call, and a timer runs when it is due or later. -/
def Timed (state : State Time Message) : Event Time Message → Prop
  | .offer read acted _ => read ≤ acted
  | .fire now => ∀ due ∈ state.due, due ≤ now
  | .clear => True

variable [AddCommGroup Time] (interval : Time)

/-- No message is let through while another waits. -/
def Waits (state : State Time Message) : Event Time Message → Prop
  | .offer read _ _ => state.due.isSome → ∀ last ∈ state.lastEmittedAt, read - last < interval
  | _ => True

/-- One publication at least an interval after another. -/
def Emission.Apart (first second : Emission Time Message) : Prop :=
  first.time + interval ≤ second.time

/-- What was published, and what waits, of what was offered. -/
structure Orderly (offered : List Message) (newest : Option Message)
    (emitted : List (Emission Time Message)) (state : State Time Message) : Prop where
  spaced : emitted.IsChain (Emission.Apart interval)
  inOrder : (emitted.map Emission.message).Sublist offered
  newestKept : ∀ message ∈ newest,
    emitted.getLast?.map Emission.message = some message ∨
      (state.pending = some message ∧ state.due.isSome)

end Conditions

/-! ### What holds of a run -/

section Runs

variable {Time Message : Type} [AddCommGroup Time] [LinearOrder Time] (interval : Time)

/-- What a state says of what was published so far. -/
private structure Kept (offered : List Message) (newest : Option Message)
    (emitted : List (Emission Time Message)) (state : State Time Message) : Prop where
  spaced : emitted.IsChain (Emission.Apart interval)
  last : state.lastEmittedAt = emitted.getLast?.map Emission.time
  dueLater : ∀ due ∈ state.due, ∃ last, state.lastEmittedAt = some last ∧ last + interval ≤ due
  armed : state.due.isSome = state.pending.isSome
  inOrder : (emitted.map Emission.message ++ state.pending.toList).Sublist offered
  newestKept : ∀ message ∈ newest,
    state.pending = some message ∨
      (state.pending = none ∧ emitted.getLast?.map Emission.message = some message)

variable {interval} {offered : List Message} {newest : Option Message}
  {emitted : List (Emission Time Message)} {state : State Time Message}

private theorem Kept.orderly (kept : Kept interval offered newest emitted state) :
    Orderly interval offered newest emitted state where
  spaced := kept.spaced
  inOrder := (List.sublist_append_left _ _).trans kept.inOrder
  newestKept := by
    intro message mine
    rcases kept.newestKept message mine with waits | ⟨_, published⟩
    · apply Or.inr
      refine ⟨waits, ?_⟩
      rw [kept.armed, waits]
      rfl
    · exact .inl published

/-- Publishing keeps the distance when the interval has passed since the last time. -/
private theorem Kept.spaced_append (kept : Kept interval offered newest emitted state)
    {now : Time} (passed : ∀ last ∈ state.lastEmittedAt, last + interval ≤ now)
    (message : Message) :
    (emitted ++ [Emission.mk now message]).IsChain (Emission.Apart interval) := by
  apply List.isChain_append.mpr
  refine ⟨kept.spaced, List.isChain_singleton _, ?_⟩
  intro first former second same
  cases same
  apply passed
  rw [kept.last, Option.mem_def.mp former]
  rfl

variable [IsOrderedAddMonoid Time]

private theorem passed_of_isOpen {read : Time} (opened : state.isOpen interval read = true) :
    ∀ last ∈ state.lastEmittedAt, last + interval ≤ read := by
  intro last mine
  rw [State.isOpen, mine] at opened
  have enough : interval ≤ read - last := of_decide_eq_true opened
  exact le_sub_iff_add_le'.mp enough

/-- What one event keeps. -/
private theorem Kept.step (kept : Kept interval offered newest emitted state)
    {event : Event Time Message} (timed : Timed state event) (waits : Waits interval state event) :
    Kept interval (offered ++ event.message?.toList) (event.newest newest)
      (emitted ++ (state.step interval event).2.toList) (state.step interval event).1 := by
  cases event with
  | offer read acted message =>
      cases opened : state.isOpen interval read with
      | true =>
          -- nothing waits, since a timer would be armed for it
          have unarmed : state.due = none := by
            by_contra armed
            obtain ⟨due, mine⟩ := Option.ne_none_iff_exists'.mp armed
            obtain ⟨last, former, _⟩ := kept.dueLater due mine
            have closed := waits (Option.isSome_iff_ne_none.mpr armed) last former
            rw [State.isOpen, former] at opened
            exact absurd (of_decide_eq_true opened) (not_le.mpr closed)
          have nothing : state.pending = none := by
            have same := kept.armed
            rw [unarmed] at same
            exact Option.isNone_iff_eq_none.mp (by simpa using same.symm)
          simp only [State.step, opened, if_true, Event.message?, Event.newest,
            Option.toList_some]
          refine ⟨?_, ?_, ?_, kept.armed, ?_, ?_⟩
          · apply kept.spaced_append
            intro last mine
            exact (passed_of_isOpen opened last mine).trans timed
          · rw [List.getLast?_concat]
            rfl
          · rw [unarmed]
            exact nofun
          · have before := kept.inOrder
            rw [nothing, Option.toList_none, List.append_nil] at before ⊢
            rw [List.map_append]
            exact before.append (List.Sublist.refl _)
          · intro newer same
            cases same
            exact .inr ⟨nothing, by rw [List.getLast?_concat]; rfl⟩
      | false =>
          obtain ⟨last, former⟩ : ∃ last, state.lastEmittedAt = some last := by
            apply Option.isSome_iff_exists.mp
            by_contra never
            rw [State.isOpen, Option.not_isSome_iff_eq_none.mp never] at opened
            cases opened
          simp only [State.step, opened, Bool.false_eq_true, if_false, Event.message?, Event.newest,
            Option.toList_some, Option.toList_none, List.append_nil]
          refine ⟨kept.spaced, kept.last, ?_, ?_, ?_, ?_⟩
          · intro due mine
            cases armed : state.due with
            | some already =>
                rw [armed] at mine
                cases mine
                exact kept.dueLater due armed
            | none =>
                rw [armed, former] at mine
                cases mine
                refine ⟨last, former, ?_⟩
                have ahead : read ≤ acted := timed
                calc last + interval
                  _ = read + (interval - (read - last)) := by abel
                  _ ≤ acted + (interval - (read - last)) := add_le_add_left ahead _
          · rw [former]
            cases state.due <;> rfl
          · apply List.Sublist.append _ (List.Sublist.refl _)
            exact (List.sublist_append_left _ _).trans kept.inOrder
          · intro newer same
            cases same
            exact .inl rfl
  | fire now =>
      cases armed : state.due with
      | none =>
          simp only [State.step, armed, Option.isSome_none, Bool.false_eq_true, if_false,
            Event.message?, Event.newest, Option.toList_none, List.append_nil]
          exact kept
      | some due =>
          obtain ⟨message, waiting⟩ : ∃ message, state.pending = some message := by
            apply Option.isSome_iff_exists.mp
            rw [← kept.armed, armed]
            rfl
          simp only [State.step, armed, waiting, Option.isSome_some, if_true, Option.elim_some,
            Event.message?, Event.newest, Option.toList_some, Option.toList_none, List.append_nil]
          refine ⟨?_, ?_, nofun, rfl, ?_, ?_⟩
          · apply kept.spaced_append
            intro last mine
            obtain ⟨other, same, later⟩ := kept.dueLater due armed
            cases same.symm.trans (Option.mem_def.mp mine)
            exact later.trans (timed due armed)
          · rw [List.getLast?_concat]
            rfl
          · have before := kept.inOrder
            rw [waiting] at before
            rw [List.map_append, Option.toList_none, List.append_nil]
            exact before
          · intro newest mine
            apply Or.inr
            rcases kept.newestKept newest mine with waits | ⟨nothing, _⟩
            · rw [waiting] at waits
              cases waits
              exact ⟨rfl, by rw [List.getLast?_concat]; rfl⟩
            · rw [waiting] at nothing
              cases nothing
  | clear =>
      simp only [State.step, Event.message?, Event.newest, Option.toList_none, List.append_nil]
      refine ⟨kept.spaced, kept.last, nofun, rfl, ?_, nofun⟩
      rw [Option.toList_none, List.append_nil]
      exact (List.sublist_append_left _ _).trans kept.inOrder

private theorem Kept.run (kept : Kept interval offered newest emitted state)
    {events : List (Event Time Message)}
    (timed : Along (State.step interval) Timed state events)
    (waits : Along (State.step interval) (Waits interval) state events) :
    Kept interval (offered ++ offers events) (events.foldl Event.newest newest)
      (emitted ++ (state.run interval events).2) (state.run interval events).1 := by
  induction events generalizing offered newest emitted state with
  | nil => simpa [offers, State.run, runFrom] using kept
  | cons event rest inductionHypothesis =>
      have whole := inductionHypothesis (kept.step timed.1 waits.1) timed.2 waits.2
      rw [List.append_assoc, List.append_assoc] at whole
      have offered : offers (event :: rest) = event.message?.toList ++ offers rest := by
        unfold offers
        rw [List.filterMap_cons]
        cases event.message? <;> rfl
      rw [offered]
      exact whole

/-- In a run in which no message is let through while another waits, the messages published are an
interval apart and in the order they were offered, and the newest is published last or waits. -/
theorem orderly_run {events : List (Event Time Message)}
    (timed : Along (State.step interval) Timed fresh events)
    (waits : Along (State.step interval) (Waits interval) fresh events) :
    Orderly interval (offers events) (latest events) ((fresh : State Time Message).run interval events).2
      ((fresh : State Time Message).run interval events).1 := by
  have start : Kept interval [] none [] (fresh : State Time Message) :=
    ⟨.nil, rfl, nofun, rfl, .slnil, nofun⟩
  exact (start.run timed waits).orderly

end Runs

/-! ### Machines that publish this way -/

section Simulation

variable {Time Message Machine Call Out : Type} [AddCommGroup Time] [LinearOrder Time]

/-- A machine that, in the states that hold, does to what `view` shows of it what the events of its
calls do. A call without an event shows nothing. -/
structure Simulation (interval : Time) (step : Machine → Call → Machine × Option Out)
    (view : Machine → State Time Message) (event? : Call → Option (Event Time Message))
    (emission? : Out → Option (Emission Time Message)) (holds : Machine → Prop) : Prop where
  keeps : ∀ {machine call}, holds machine → holds (step machine call).1
  acts : ∀ {machine call event}, holds machine → event? call = some event →
    view (step machine call).1 = ((view machine).step interval event).1 ∧
      (step machine call).2.bind emission? = ((view machine).step interval event).2
  idles : ∀ {machine call}, holds machine → event? call = none →
    view (step machine call).1 = view machine ∧ (step machine call).2.bind emission? = none

variable {interval : Time} {step : Machine → Call → Machine × Option Out}
  {view : Machine → State Time Message} {event? : Call → Option (Event Time Message)}
  {emission? : Out → Option (Emission Time Message)} {holds : Machine → Prop} {machine : Machine}

omit [AddCommGroup Time] [LinearOrder Time] in
private theorem filterMap_toList_append (out : Option Out) (later : List Out) :
    (out.toList ++ later).filterMap emission? =
      (out.bind emission?).toList ++ later.filterMap emission? := by
  rw [List.filterMap_append]
  apply congrArg (· ++ _)
  cases out with
  | none => rfl
  | some value =>
      rw [Option.toList_some, Option.bind_some, List.filterMap_cons, List.filterMap_nil]
      cases emission? value <;> rfl

/-- A run of the machine shows a run of the publisher. -/
theorem Simulation.run (simulation : Simulation interval step view event? emission? holds)
    (start : holds machine) (calls : List Call) :
    view (runFrom step machine calls).1 =
        ((view machine).run interval (calls.filterMap event?)).1 ∧
      (runFrom step machine calls).2.filterMap emission? =
        ((view machine).run interval (calls.filterMap event?)).2 := by
  induction calls generalizing machine with
  | nil => exact ⟨rfl, rfl⟩
  | cons call rest inductionHypothesis =>
      have kept : holds (step machine call).1 := simulation.keeps start
      obtain ⟨later, others⟩ := inductionHypothesis kept
      simp only [runFrom]
      rw [filterMap_toList_append, later, others]
      cases same : event? call with
      | none =>
          obtain ⟨shown, none⟩ := simulation.idles start same
          rw [List.filterMap_cons_none same, shown, none]
          exact ⟨rfl, rfl⟩
      | some event =>
          obtain ⟨shown, emitted⟩ := simulation.acts start same
          rw [List.filterMap_cons_some same, shown, emitted]
          exact ⟨rfl, rfl⟩

/-- What is asked of each call is asked of each event of the publisher. -/
theorem Simulation.along (simulation : Simulation interval step view event? emission? holds)
    (start : holds machine) {meets : Machine → Call → Prop}
    {asked : State Time Message → Event Time Message → Prop}
    (each : ∀ {machine call event}, holds machine → event? call = some event → meets machine call →
      asked (view machine) event)
    {calls : List Call} (along : Along step meets machine calls) :
    Along (State.step interval) asked (view machine) (calls.filterMap event?) := by
  induction calls generalizing machine with
  | nil => trivial
  | cons call rest inductionHypothesis =>
      have kept : holds (step machine call).1 := simulation.keeps start
      have later := inductionHypothesis kept along.2
      cases same : event? call with
      | none =>
          rw [(simulation.idles start same).1] at later
          rw [List.filterMap_cons_none same]
          exact later
      | some event =>
          rw [(simulation.acts start same).1] at later
          rw [List.filterMap_cons_some same]
          exact ⟨each start same along.1, later⟩

variable [IsOrderedAddMonoid Time]

/-- A machine that publishes this way publishes in order. -/
theorem Simulation.orderly (simulation : Simulation interval step view event? emission? holds)
    (start : holds machine) (empty : view machine = fresh) {calls : List Call}
    (timed : Along (State.step interval) Timed (view machine) (calls.filterMap event?))
    (waits : Along (State.step interval) (Waits interval) (view machine)
      (calls.filterMap event?)) :
    Orderly interval (offers (calls.filterMap event?)) (latest (calls.filterMap event?))
      ((runFrom step machine calls).2.filterMap emission?) (view (runFrom step machine calls).1) := by
  obtain ⟨state, emitted⟩ := simulation.run start calls
  rw [empty] at timed waits
  rw [state, emitted, empty]
  exact orderly_run timed waits

end Simulation

end Assaybank.Library.Coalescer
