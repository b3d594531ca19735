import Mathlib.Logic.Function.Basic

/-!
Owns what the libraries share: when a sequence of fallible steps ends well, and what a map holds
after one key of it is set.
-/

namespace Assaybank.Library

/-- Two steps end well when the first does and the second does with its result. -/
theorem bind_eq_ok {ε α β : Type} {first : Except ε α} {next : α → Except ε β} {b : β} :
    (first >>= next) = .ok b ↔ ∃ a, first = .ok a ∧ next a = .ok b := by
  cases first with
  | error e =>
      constructor
      · intro impossible
        cases impossible
      · rintro ⟨a, impossible, _⟩
        cases impossible
  | ok a =>
      constructor
      · intro result
        exact ⟨a, rfl, result⟩
      · rintro ⟨_, same, result⟩
        cases same
        exact result

/-- A fold whose every step succeeds and keeps a property succeeds and keeps it. -/
theorem foldlM_ok {ε α β : Type} {step : α → β → Except ε α} {Kept : α → Prop}
    {Fit : β → Prop} (next : ∀ a b, Kept a → Fit b → ∃ c, step a b = .ok c ∧ Kept c)
    {items : List β} (fit : ∀ b ∈ items, Fit b) {start : α} (kept : Kept start) :
    ∃ final, items.foldlM step start = .ok final ∧ Kept final := by
  induction items generalizing start with
  | nil => exact ⟨start, rfl, kept⟩
  | cons item rest inductionHypothesis =>
      obtain ⟨middle, stepped, keptMiddle⟩ := next start item kept (fit item List.mem_cons_self)
      rw [List.foldlM_cons, stepped]
      exact inductionHypothesis (fun b inside => fit b (List.mem_cons_of_mem _ inside)) keptMiddle

/-- A fold that ends well took no item its step refuses. -/
theorem foldlM_fit {ε α β : Type} {step : α → β → Except ε α} {Fit : β → Prop}
    (taken : ∀ a b c, step a b = .ok c → Fit b) {items : List β} {start final : α}
    (folded : items.foldlM step start = .ok final) : ∀ b ∈ items, Fit b := by
  induction items generalizing start with
  | nil =>
      intro b inside
      cases inside
  | cons item rest inductionHypothesis =>
      rw [List.foldlM_cons] at folded
      obtain ⟨middle, stepped, folded⟩ := bind_eq_ok.mp folded
      intro b inside
      cases List.mem_cons.mp inside with
      | inl here =>
          subst here
          exact taken start b middle stepped
      | inr later => exact inductionHypothesis folded b later

/-- What is found after a key is set is what it was set to, or what was there. -/
theorem update_eq_some {κ Entry : Type} [DecidableEq κ] {entries : κ → Option Entry}
    {key other : κ} {mine : Option Entry} {its : Entry}
    (found : Function.update entries key mine other = some its) :
    (other = key ∧ mine = some its) ∨ (other ≠ key ∧ entries other = some its) := by
  by_cases same : other = key
  · subst same
    rw [Function.update_self] at found
    exact .inl ⟨rfl, found⟩
  · rw [Function.update_of_ne same] at found
    exact .inr ⟨same, found⟩

end Assaybank.Library
