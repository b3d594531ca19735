import Mathlib.Control.Monad.Basic

/-!
Owns computations that use a shared state and leave it as they found it.

Contract: a walk that `Restores` the state it starts in gives what a computation without state
gives. Sequences, loops and brackets of such walks are such walks (`Restores.bind`,
`Restores.foldlM`, `Restores.bracket`).
-/

namespace Assaybank.Library

variable {σ ε α β γ : Type}

/-- Started in `state`, the walk gives the result and stops in `state`, unless it fails. -/
def Restores (state : σ) (walk : StateT σ (Except ε) α) (result : Except ε α) : Prop :=
  walk.run state = (·, state) <$> result

/-- Run for its result alone, the walk gives the result. -/
theorem Restores.run'_eq {state : σ} {walk : StateT σ (Except ε) α} {result : Except ε α}
    (restored : Restores state walk result) : walk.run' state = result := by
  unfold Restores at restored
  rw [StateT.run'_eq, restored]
  cases result with
  | error e => rfl
  | ok a => rfl

theorem Restores.pure (state : σ) (a : α) :
    Restores (ε := ε) state (Pure.pure a) (.ok a) := rfl

theorem Restores.throw (state : σ) (e : ε) :
    Restores (α := α) state (MonadExcept.throw e) (.error e) := rfl

/-- Reading the state reads the one it starts in. -/
theorem Restores.get {state : σ} {walk : σ → StateT σ (Except ε) α} {result : Except ε α}
    (next : Restores state (walk state) result) :
    Restores state (MonadState.get >>= walk) result := next

theorem Restores.bind {state : σ} {first : StateT σ (Except ε) α} {result : Except ε α}
    {next : α → StateT σ (Except ε) β} {after : α → Except ε β}
    (restored : Restores state first result) (later : ∀ a, Restores state (next a) (after a)) :
    Restores state (first >>= next) (result >>= after) := by
  unfold Restores at *
  rw [StateT.run_bind, restored]
  cases result with
  | error e => rfl
  | ok a => exact later a

/-- A loop over items restores the state when every turn does. -/
theorem Restores.foldlM {state : σ} {step : β → α → StateT σ (Except ε) β}
    {plain : β → α → Except ε β} (turn : ∀ b a, Restores state (step b a) (plain b a))
    (items : List α) (start : β) :
    Restores state (items.foldlM step start) (items.foldlM plain start) := by
  induction items generalizing start with
  | nil => exact Restores.pure state start
  | cons item rest inductionHypothesis =>
      rw [List.foldlM_cons, List.foldlM_cons]
      exact (turn start item).bind inductionHypothesis

theorem Restores.mapM {state : σ} {step : α → StateT σ (Except ε) β} {plain : α → Except ε β}
    (turn : ∀ a, Restores state (step a) (plain a)) (items : List α) :
    Restores state (items.mapM step) (items.mapM plain) := by
  induction items with
  | nil => exact Restores.pure state []
  | cons item rest inductionHypothesis =>
      rw [List.mapM_cons, List.mapM_cons]
      exact (turn item).bind fun _ => inductionHypothesis.bind fun _ => Restores.pure state _

/-- Enters a scope, runs its body and leaves. -/
def bracket (enter leave : σ → σ) (body : StateT σ (Except ε) α) : StateT σ (Except ε) α := do
  modify enter
  let a ← body
  modify leave
  return a

/-- A scope whose leaving undoes its entering restores the state, as its body does inside. -/
theorem Restores.bracket {state : σ} {enter leave : σ → σ} (undone : leave (enter state) = state)
    {body : StateT σ (Except ε) α} {result : Except ε α}
    (inside : Restores (enter state) body result) :
    Restores state (Library.bracket enter leave body) result := by
  have run : (Library.bracket enter leave body).run state =
      body.run (enter state) >>= fun pair => .ok (pair.1, leave pair.2) := rfl
  unfold Restores at *
  rw [run, inside]
  cases result with
  | error e => rfl
  | ok a =>
      show Except.ok (a, leave (enter state)) = Except.ok (a, state)
      rw [undone]

end Assaybank.Library
