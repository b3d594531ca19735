import Mathlib.Data.List.Basic

/-!
Owns the history of a machine that takes one event after another: the transitions of a run, in
order.

Contract: an invariant of the steps holds at both ends of every transition (`history_invariant`).
Where one kind of transition settles what another raises, each settling is preceded by a raising
with no settling between the two (`settles_after_raises`).
-/

namespace Assaybank.Library

/-- One step of a run. -/
structure Transition (State Event : Type) where
  before : State
  event : Event
  after : State

section Histories

variable {State Event : Type} {step : State → Event → State}

/-- The transitions of a run, first to last. -/
def history (step : State → Event → State) (state : State) :
    List Event → List (Transition State Event)
  | [] => []
  | event :: events => ⟨state, event, step state event⟩ :: history step (step state event) events

/-- A transition is a step of the machine. -/
theorem history_step {state : State} {events : List Event} {transition : Transition State Event}
    (taken : transition ∈ history step state events) :
    transition.after = step transition.before transition.event := by
  induction events generalizing state with
  | nil => cases taken
  | cons event events inductionHypothesis =>
      cases List.mem_cons.mp taken with
      | inl here =>
          subst here
          rfl
      | inr later => exact inductionHypothesis later

/-- What the steps of a run preserve holds before and after each of them. -/
theorem history_invariant {kept : State → Prop} {state : State} {events : List Event}
    (steps : ∀ transition ∈ history step state events, kept transition.before →
      kept transition.after) (start : kept state) :
    ∀ transition ∈ history step state events, kept transition.before ∧ kept transition.after := by
  induction events generalizing state with
  | nil =>
      intro transition taken
      cases taken
  | cons event events inductionHypothesis =>
      have first : kept (step state event) := steps _ List.mem_cons_self start
      intro transition taken
      cases List.mem_cons.mp taken with
      | inl here =>
          subst here
          exact ⟨start, first⟩
      | inr later =>
          have rest : ∀ transition ∈ history step (step state event) events,
              kept transition.before → kept transition.after :=
            fun transition inside => steps transition (List.mem_cons_of_mem _ inside)
          exact inductionHypothesis rest first transition later

/-! ### Debts -/

variable {owed : State → Prop} {raises settles : Transition State Event → Prop}

/-- What is owed at some point of a run was raised before it and not settled since, or has been
owed from the start. By induction on the transitions before that point. -/
theorem owed_since {state : State} {events : List Event}
    {earlier : List (Transition State Event)} {transition : Transition State Event}
    {later : List (Transition State Event)}
    (split : history step state events = earlier ++ transition :: later)
    (source : ∀ other ∈ history step state events, owed other.after →
      raises other ∨ owed other.before ∧ ¬ settles other)
    (owing : owed transition.before) :
    (∃ before raised since, earlier = before ++ raised :: since ∧ raises raised ∧
      ∀ other ∈ since, ¬ settles other) ∨
    owed state ∧ ∀ other ∈ earlier, ¬ settles other := by
  induction earlier generalizing state events with
  | nil =>
      cases events with
      | nil => cases split
      | cons event events =>
          injection split with first
          rw [← first] at owing
          exact .inr ⟨owing, fun _ impossible => nomatch impossible⟩
  | cons first earlier inductionHypothesis =>
      cases events with
      | nil => cases split
      | cons event events =>
          injection split with same rest
          have onward : ∀ other ∈ history step (step state event) events, owed other.after →
              raises other ∨ owed other.before ∧ ¬ settles other :=
            fun other inside => source other (List.mem_cons_of_mem _ inside)
          cases inductionHypothesis rest onward with
          | inl found =>
              obtain ⟨before, raised, since, shape, holds, clear⟩ := found
              exact .inl ⟨first :: before, raised, since, by rw [shape, List.cons_append], holds,
                clear⟩
          | inr sinceStep =>
              obtain ⟨stillOwed, clear⟩ := sinceStep
              cases source _ List.mem_cons_self stillOwed with
              | inl raised =>
                  rw [same] at raised
                  exact .inl ⟨[], first, earlier, rfl, raised, clear⟩
              | inr carried =>
                  obtain ⟨owedBefore, unsettled⟩ := carried
                  refine .inr ⟨owedBefore, ?_⟩
                  intro other inside
                  cases List.mem_cons.mp inside with
                  | inl here =>
                      rw [here, ← same]
                      exact unsettled
                  | inr after => exact clear other after

/-- Where nothing is owed at the start and only what is owed is settled, a settling follows a
raising with no settling between the two. -/
theorem settles_after_raises (owed : State → Prop) {state : State} {events : List Event}
    {earlier : List (Transition State Event)} {transition : Transition State Event}
    {later : List (Transition State Event)}
    (split : history step state events = earlier ++ transition :: later)
    (nothing : ¬ owed state)
    (source : ∀ other ∈ history step state events, owed other.after →
      raises other ∨ owed other.before ∧ ¬ settles other)
    (owing : owed transition.before) :
    ∃ before raised since, earlier = before ++ raised :: since ∧ raises raised ∧
      ∀ other ∈ since, ¬ settles other := by
  cases owed_since split source owing with
  | inl found => exact found
  | inr fromStart => exact absurd fromStart.1 nothing

end Histories

end Assaybank.Library
