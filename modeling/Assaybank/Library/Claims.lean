import Mathlib.Data.Int.Order.Basic
import Mathlib.Data.List.Induction

/-!
Owns stores in which a key is taken for a while: a claim of a key that is free takes it for as long as
the claim lasts, and a claim of one that is taken is refused.

Contract: under a clock that never goes back, a key is refused exactly when a claim of it that was
granted still lasts, whatever the store forgot in between (`refused_iff`). So two stores answer a run
of claims alike where they agree on which of its claims last (`answers_eq`), and a claim that is
granted is made when no earlier one of its key lasts (`granted_apart`).
-/

namespace Assaybank.Library.Claims

/-- What a claim says: its key, and when it is made. -/
structure Terms (Claim Key : Type) where
  key : Claim → Key
  now : Claim → Int

/-- A store: how it answers a claim, and which keys it holds taken at an instant. A claim that was
granted takes its key at the instants it `lasts`. What a store says of instants that are past is not
asked. -/
structure Store {Claim Key : Type} [DecidableEq Key] (terms : Terms Claim Key)
    (lasts : Claim → Int → Bool) (State : Type) where
  start : State
  claim : State → Claim → Bool × State
  taken : State → Key → Int → Bool
  valid : State → Prop
  valid_start : valid start
  valid_claim : ∀ {state claimed}, valid state → valid (claim state claimed).2
  free_start : ∀ key at_, taken start key at_ = false
  answers : ∀ {state claimed}, valid state →
    (claim state claimed).1 = !taken state (terms.key claimed) (terms.now claimed)
  holds : ∀ {state claimed key at_}, valid state → terms.now claimed ≤ at_ →
    taken (claim state claimed).2 key at_ =
      (taken state key at_ ||
        (claim state claimed).1 && (decide (key = terms.key claimed) && lasts claimed at_))

/-- Claims in the order of a clock that never goes back. -/
def Ordered {Claim Key : Type} (terms : Terms Claim Key) (claims : List Claim) : Prop :=
  claims.Pairwise fun earlier later => terms.now earlier ≤ terms.now later

variable {Claim Key State Other : Type} [DecidableEq Key] {terms : Terms Claim Key}
  {lasts otherLasts : Claim → Int → Bool}

namespace Store

/-- One claim of a run: the state after it, and the claims that were granted so far. -/
def step (store : Store terms lasts State) (run : State × List Claim) (claimed : Claim) :
    State × List Claim :=
  let answer := store.claim run.1 claimed
  (answer.2, if answer.1 then run.2 ++ [claimed] else run.2)

def run (store : Store terms lasts State) (claims : List Claim) : State × List Claim :=
  claims.foldl store.step (store.start, [])

/-- The claims of a run that are granted. -/
def granted (store : Store terms lasts State) (claims : List Claim) : List Claim :=
  (store.run claims).2

/-- The answer to a claim after a run. -/
def answer (store : Store terms lasts State) (claims : List Claim) (claimed : Claim) : Bool :=
  (store.claim (store.run claims).1 claimed).1

theorem run_snoc (store : Store terms lasts State) (claims : List Claim) (claimed : Claim) :
    store.run (claims ++ [claimed]) = store.step (store.run claims) claimed :=
  List.foldl_append

/-- The state after one more claim. -/
theorem state_snoc (store : Store terms lasts State) (claims : List Claim) (claimed : Claim) :
    (store.run (claims ++ [claimed])).1 = (store.claim (store.run claims).1 claimed).2 := by
  rw [run_snoc]
  rfl

theorem granted_snoc (store : Store terms lasts State) (claims : List Claim) (claimed : Claim) :
    store.granted (claims ++ [claimed]) =
      if store.answer claims claimed then store.granted claims ++ [claimed]
      else store.granted claims := by
  unfold granted answer
  rw [run_snoc]
  rfl

variable {store : Store terms lasts State}

theorem valid_run (store : Store terms lasts State) (claims : List Claim) :
    store.valid (store.run claims).1 := by
  induction claims using List.reverseRecOn with
  | nil => exact store.valid_start
  | append_singleton claims claimed inductionHypothesis =>
      rw [run_snoc]
      exact store.valid_claim inductionHypothesis

theorem granted_sublist (store : Store terms lasts State) (claims : List Claim) :
    (store.granted claims).Sublist claims := by
  induction claims using List.reverseRecOn with
  | nil => exact List.Sublist.slnil
  | append_singleton claims claimed inductionHypothesis =>
      rw [granted_snoc]
      split
      · exact inductionHypothesis.append (List.Sublist.refl _)
      · exact inductionHypothesis.trans (List.sublist_append_left _ _)

/-- The keys taken after a run are those of the granted claims that still last. -/
theorem taken_iff {claims : List Claim} (ordered : Ordered terms claims) {key : Key} {at_ : Int}
    (onward : ∀ claimed ∈ claims, terms.now claimed ≤ at_) :
    store.taken (store.run claims).1 key at_ = true ↔
      ∃ prior ∈ store.granted claims, terms.key prior = key ∧ lasts prior at_ = true := by
  induction claims using List.reverseRecOn with
  | nil =>
      show store.taken store.start key at_ = true ↔ _
      rw [store.free_start]
      constructor
      · intro impossible
        cases impossible
      · intro found
        obtain ⟨prior, inside, _⟩ := found
        cases inside
  | append_singleton claims claimed inductionHypothesis =>
      have before := inductionHypothesis (List.pairwise_append.mp ordered).1
        fun other inside => onward other (List.mem_append_left _ inside)
      have now := onward claimed (List.mem_append_right _ List.mem_cons_self)
      rw [state_snoc, store.holds (store.valid_run claims) now, granted_snoc, Bool.or_eq_true,
        before]
      cases answered : store.answer claims claimed with
      | false =>
          have refused : (store.claim (store.run claims).1 claimed).1 = false := answered
          rw [refused]
          simp
      | true =>
          have accepted : (store.claim (store.run claims).1 claimed).1 = true := answered
          rw [accepted]
          simp only [Bool.true_and, Bool.and_eq_true, decide_eq_true_eq, if_true, List.mem_append,
            List.mem_singleton]
          constructor
          · intro found
            rcases found with earlier | ⟨same, still⟩
            · obtain ⟨prior, inside, rest⟩ := earlier
              exact ⟨prior, .inl inside, rest⟩
            · exact ⟨claimed, .inr rfl, same.symm, still⟩
          · intro found
            obtain ⟨prior, inside, same, still⟩ := found
            rcases inside with earlier | last
            · exact .inl ⟨prior, earlier, same, still⟩
            · subst last
              exact .inr ⟨same.symm, still⟩

/-- A claim is refused exactly when a granted claim of its key still lasts. -/
theorem refused_iff (store : Store terms lasts State) {claims : List Claim} {claimed : Claim}
    (ordered : Ordered terms (claims ++ [claimed])) :
    store.answer claims claimed = false ↔
      ∃ prior ∈ store.granted claims,
        terms.key prior = terms.key claimed ∧ lasts prior (terms.now claimed) = true := by
  obtain ⟨before, _, across⟩ := List.pairwise_append.mp ordered
  unfold answer
  rw [store.answers (store.valid_run claims), Bool.not_eq_false',
    taken_iff before fun earlier inside => across earlier inside claimed List.mem_cons_self]

/-- Two stores agree on which claims of a run last when a later one of the same key is made. -/
def Alike (terms : Terms Claim Key) (lasts otherLasts : Claim → Int → Bool) (claims : List Claim) :
    Prop :=
  claims.Pairwise fun earlier later => terms.key earlier = terms.key later →
    lasts earlier (terms.now later) = otherLasts earlier (terms.now later)

private theorem answer_eq (store : Store terms lasts State) (other : Store terms otherLasts Other)
    {claims : List Claim} {claimed : Claim} (ordered : Ordered terms (claims ++ [claimed]))
    (alike : Alike terms lasts otherLasts (claims ++ [claimed]))
    (granted : store.granted claims = other.granted claims) :
    store.answer claims claimed = other.answer claims claimed := by
  have mine := refused_iff store ordered
  have theirs := refused_iff other ordered
  have across := (List.pairwise_append.mp alike).2.2
  rw [← granted] at theirs
  have same : store.answer claims claimed = false ↔ other.answer claims claimed = false := by
    rw [mine, theirs]
    refine exists_congr fun prior => and_congr_right fun inside => and_congr_right fun key => ?_
    rw [across prior ((granted_sublist store claims).mem inside) claimed List.mem_cons_self key]
  rw [Bool.eq_iff_iff, ← Bool.not_eq_false, ← Bool.not_eq_false, same]

/-- Two stores that agree on which claims last grant the same claims of a run. -/
theorem granted_eq (store : Store terms lasts State) (other : Store terms otherLasts Other)
    {claims : List Claim} (ordered : Ordered terms claims)
    (alike : Alike terms lasts otherLasts claims) :
    store.granted claims = other.granted claims := by
  induction claims using List.reverseRecOn with
  | nil => rfl
  | append_singleton claims claimed inductionHypothesis =>
      have same := inductionHypothesis (List.pairwise_append.mp ordered).1
        (List.pairwise_append.mp alike).1
      rw [granted_snoc, granted_snoc, answer_eq store other ordered alike same, same]

/-- So they answer the next claim alike. -/
theorem answers_eq (store : Store terms lasts State) (other : Store terms otherLasts Other)
    {claims : List Claim} {claimed : Claim} (ordered : Ordered terms (claims ++ [claimed]))
    (alike : Alike terms lasts otherLasts (claims ++ [claimed])) :
    store.answer claims claimed = other.answer claims claimed :=
  answer_eq store other ordered alike (granted_eq store other
    (List.pairwise_append.mp ordered).1 (List.pairwise_append.mp alike).1)

/-- A claim that is granted is made when no earlier one of its key lasts. -/
theorem granted_apart (store : Store terms lasts State) {claims : List Claim}
    (ordered : Ordered terms claims) :
    (store.granted claims).Pairwise fun earlier later =>
      terms.key earlier = terms.key later → lasts earlier (terms.now later) = false := by
  induction claims using List.reverseRecOn with
  | nil => exact .nil
  | append_singleton claims claimed inductionHypothesis =>
      have before := inductionHypothesis (List.pairwise_append.mp ordered).1
      rw [granted_snoc]
      cases answered : store.answer claims claimed with
      | false => exact before
      | true =>
          refine List.pairwise_append.mpr ⟨before, List.pairwise_singleton _ _, ?_⟩
          intro earlier inside later last same
          rw [List.mem_singleton.mp last] at same ⊢
          have free := mt (refused_iff store ordered).mpr (by rw [answered]; decide)
          exact Bool.eq_false_iff.mpr fun still => free ⟨earlier, inside, same, still⟩

end Store

end Assaybank.Library.Claims
