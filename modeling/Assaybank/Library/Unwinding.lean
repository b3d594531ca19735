import Mathlib.Data.List.Basic

/-!
Owns runs with answers of a machine that does not take an event it is not ready for, and what a part
of the events can tell of the others.

Contract: where the other events leave a state alike and the concerned ones are answered alike in
alike states, the concerned events alone run to the same answers (`traced_projects`).
-/

namespace Assaybank.Library

section Traces

variable {State Event Answer : Type} {step : State → Event → Option (State × Answer)}

/-- A run, with the answer to each event. None where an event is not taken. -/
def traced (step : State → Event → Option (State × Answer)) :
    State → List Event → Option (State × List (Event × Answer))
  | state, [] => some (state, [])
  | state, event :: events =>
      match step state event with
      | none => none
      | some (after, answer) =>
          (traced step after events).map fun (final, answers) => (final, (event, answer) :: answers)

theorem traced_cons {state final : State} {event : Event} {events : List Event}
    {answers : List (Event × Answer)}
    (ran : traced step state (event :: events) = some (final, answers)) :
    ∃ after answer rest, step state event = some (after, answer) ∧
      traced step after events = some (final, rest) ∧ answers = (event, answer) :: rest := by
  rw [traced] at ran
  split at ran
  · cases ran
  · rename_i after answer stepped
    obtain ⟨⟨_, rest⟩, later, same⟩ := Option.map_eq_some_iff.mp ran
    cases same
    exact ⟨after, answer, rest, stepped, later, rfl⟩

/-- A run makes one step after another. -/
theorem traced_cons_of {state after final : State} {event : Event} {events : List Event}
    {answer : Answer} {answers : List (Event × Answer)}
    (stepped : step state event = some (after, answer))
    (ran : traced step after events = some (final, answers)) :
    traced step state (event :: events) = some (final, (event, answer) :: answers) := by
  rw [traced, stepped]
  simp only [ran, Option.map_some]

/-- A run answers its events one by one. -/
theorem traced_events {state final : State} {events : List Event} {answers : List (Event × Answer)}
    (ran : traced step state events = some (final, answers)) : answers.map Prod.fst = events := by
  induction events generalizing state answers with
  | nil =>
      cases ran
      rfl
  | cons event events inductionHypothesis =>
      obtain ⟨after, answer, rest, _, later, rfl⟩ := traced_cons ran
      exact congrArg (event :: ·) (inductionHypothesis later)

/-- The concerned events of a run, alone, are answered as they were in it. By induction on the
events: a concerned one is taken in both runs, another only in the full one. -/
theorem traced_projects {Fits : Event → Answer → Prop} {concerns : Event → Bool}
    {Alike : State → State → Prop}
    (taken : ∀ {state alone event after answer}, Fits event answer → Alike state alone →
      concerns event = true → step state event = some (after, answer) →
      ∃ next, step alone event = some (next, answer) ∧ Alike after next)
    (passed : ∀ {state alone event after answer}, Fits event answer → Alike state alone →
      concerns event = false → step state event = some (after, answer) → Alike after alone)
    {state alone final : State} {events : List Event} {answers : List (Event × Answer)}
    (fits : ∀ told ∈ answers, Fits told.1 told.2) (start : Alike state alone)
    (ran : traced step state events = some (final, answers)) :
    ∃ last, traced step alone (events.filter concerns) =
        some (last, answers.filter fun told => concerns told.1) ∧ Alike final last := by
  induction events generalizing state alone answers with
  | nil =>
      cases ran
      exact ⟨alone, rfl, start⟩
  | cons event events inductionHypothesis =>
      obtain ⟨after, answer, rest, stepped, later, rfl⟩ := traced_cons ran
      obtain ⟨here, onward⟩ := List.forall_mem_cons.mp fits
      cases concerned : concerns event with
      | true =>
          obtain ⟨next, same, alike⟩ := taken here start concerned stepped
          obtain ⟨last, traces, ends⟩ := inductionHypothesis onward alike later
          rw [List.filter_cons_of_pos concerned,
            List.filter_cons_of_pos (p := fun told : Event × Answer => concerns told.1) concerned]
          exact ⟨last, traced_cons_of same traces, ends⟩
      | false =>
          obtain ⟨last, traces, ends⟩ :=
            inductionHypothesis onward (passed here start concerned stepped) later
          have dropped : ¬ concerns event = true := by rw [concerned]; exact Bool.false_ne_true
          rw [List.filter_cons_of_neg dropped,
            List.filter_cons_of_neg (p := fun told : Event × Answer => concerns told.1) dropped]
          exact ⟨last, traces, ends⟩

end Traces

end Assaybank.Library
