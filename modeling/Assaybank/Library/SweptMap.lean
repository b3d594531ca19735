import Assaybank.Library.Claims
import Assaybank.Library.OrderedMap
import Mathlib.Order.Basic

/-!
Owns a store of claims kept in a map: a key with the instant until which it is taken, where the
entries that ended are dropped by the first claim an interval or more after they were last dropped.

Contract: it is a store in which a claim lasts until its instant (`SweptMap.store`), whatever was
dropped in between. After a claim it holds nothing that ended an interval ago (`Swept`).
-/

namespace Assaybank.Library

structure SweptMap (Key : Type) where
  entries : List (Key × Int)
  lastSweep : Int

namespace SweptMap

variable {Key : Type} [DecidableEq Key]

/-- A map as it is made. -/
def empty : SweptMap Key := ⟨[], 0⟩

/-- Drops what has ended, at most once in an interval. -/
def sweep (interval : Int) (map : SweptMap Key) (now : Int) : SweptMap Key :=
  if now - map.lastSweep < interval then map
  else ⟨map.entries.filter fun entry => now < entry.2, now⟩

/-- Takes a key that is free until an instant. -/
def claim (interval : Int) (map : SweptMap Key) (key : Key) (ends now : Int) :
    Bool × SweptMap Key :=
  let swept := map.sweep interval now
  if (swept.entries.lookup key).any fun expiresAt => now < expiresAt then (false, swept)
  else (true, { swept with entries := setEntry swept.entries key ends })

/-- Whether a key stands in the map with an instant that is still to come. -/
def taken (map : SweptMap Key) (key : Key) (at_ : Int) : Bool :=
  (map.entries.lookup key).any fun expiresAt => at_ < expiresAt

/-- No key is held twice. -/
def Distinct (map : SweptMap Key) : Prop := (map.entries.map Prod.fst).Nodup

section Operations

variable {interval : Int} {map : SweptMap Key}

omit [DecidableEq Key] in
theorem distinct_sweep (distinct : map.Distinct) (now : Int) :
    (map.sweep interval now).Distinct := by
  unfold sweep
  split
  · exact distinct
  · exact distinct.sublist (List.filter_sublist.map Prod.fst)

theorem taken_sweep (distinct : map.Distinct) {now at_ : Int} (onward : now ≤ at_) (key : Key) :
    (map.sweep interval now).taken key at_ = map.taken key at_ := by
  unfold sweep
  by_cases recent : now - map.lastSweep < interval
  · rw [if_pos recent]
  · rw [if_neg recent]
    unfold taken
    rw [lookup_filter distinct]
    cases map.entries.lookup key with
    | none => rfl
    | some expiresAt =>
        by_cases ended : expiresAt ≤ now
        · have past : ¬at_ < expiresAt := Int.not_lt.mpr (ended.trans onward)
          have gone : ¬now < expiresAt := Int.not_lt.mpr ended
          simp [Option.filter, past, gone]
        · have lasts : now < expiresAt := Int.not_le.mp ended
          simp [Option.filter, lasts]

/-- What a claim answers and leaves, by whether its key is taken. -/
theorem claim_cases (distinct : map.Distinct) (key : Key) (ends now : Int) :
    map.claim interval key ends now =
      if map.taken key now then (false, map.sweep interval now)
      else (true, { map.sweep interval now with
        entries := setEntry (map.sweep interval now).entries key ends }) := by
  have same : map.taken key now = (map.sweep interval now).taken key now :=
    (taken_sweep distinct (le_refl now) key).symm
  rw [same]
  rfl

theorem distinct_claim (distinct : map.Distinct) (key : Key) (ends now : Int) :
    (map.claim interval key ends now).2.Distinct := by
  rw [claim_cases distinct]
  split
  · exact distinct_sweep distinct now
  · exact nodup_setEntry (distinct_sweep distinct now) _ _

/-- After a claim a key is taken as before, or by the claim. -/
theorem taken_claim (distinct : map.Distinct) {key other : Key} {ends now at_ : Int}
    (onward : now ≤ at_) :
    (map.claim interval key ends now).2.taken other at_ =
      (map.taken other at_ || (map.claim interval key ends now).1 &&
        (decide (other = key) && decide (at_ < ends))) := by
  rw [claim_cases distinct]
  cases held : map.taken key now with
  | true =>
      show (map.sweep interval now).taken other at_ = (map.taken other at_ || (false && _))
      rw [taken_sweep distinct onward, Bool.false_and, Bool.or_false]
  | false =>
      show ((setEntry (map.sweep interval now).entries key ends).lookup other).any _ =
        (map.taken other at_ || (true && _))
      rw [lookup_setEntry, Bool.true_and]
      by_cases mine : other = key
      · subst mine
        have free : map.taken other at_ = false := by
          unfold taken at held ⊢
          cases found : map.entries.lookup other with
          | none => rfl
          | some expiresAt =>
              rw [found] at held
              have ended : ¬now < expiresAt := by simpa using held
              have past : ¬at_ < expiresAt := fun lasts => ended (onward.trans_lt lasts)
              simpa using past
        simp [free]
      · rw [if_neg mine]
        show (map.sweep interval now).taken other at_ = _
        rw [taken_sweep distinct onward]
        simp [mine]

end Operations

/-- The map as a store of claims of a kind, each lasting until its instant. -/
def store {Claim : Type} (terms : Claims.Terms Claim Key) (ends : Claim → Int) (interval : Int) :
    Claims.Store terms (fun claimed at_ => decide (at_ < ends claimed)) (SweptMap Key) where
  start := empty
  claim map claimed :=
    map.claim interval (terms.key claimed) (ends claimed) (terms.now claimed)
  taken := taken
  valid := Distinct
  valid_start := List.nodup_nil
  valid_claim distinct := distinct_claim distinct _ _ _
  free_start _ _ := rfl
  answers {map claimed} distinct := by
    rw [claim_cases distinct]
    cases map.taken (terms.key claimed) (terms.now claimed) <;> rfl
  holds distinct onward := taken_claim distinct onward

/-! ### What is dropped -/

/-- The map holds nothing that ended before its last sweep, which was less than an interval ago. -/
structure Swept (interval : Int) (map : SweptMap Key) (now : Int) : Prop where
  fresh : ∀ entry ∈ map.entries, map.lastSweep < entry.2
  past : map.lastSweep ≤ now
  recent : now - map.lastSweep < interval

variable {interval : Int}

omit [DecidableEq Key] in
private theorem swept_sweep (positive : 0 < interval) {map : SweptMap Key} {now : Int}
    (fresh : ∀ entry ∈ map.entries, map.lastSweep < entry.2) (past : map.lastSweep ≤ now) :
    Swept interval (map.sweep interval now) now := by
  unfold sweep
  by_cases recent : now - map.lastSweep < interval
  · rw [if_pos recent]
    exact ⟨fresh, past, recent⟩
  · rw [if_neg recent]
    refine ⟨?_, le_refl now, ?_⟩
    · intro entry inside
      exact of_decide_eq_true (List.mem_filter.mp inside).2
    · show now - now < interval
      rw [Int.sub_self]
      exact positive

/-- After a claim that lasts the map holds nothing that ended an interval ago. -/
theorem swept_claim (positive : 0 < interval) {map : SweptMap Key} (distinct : map.Distinct)
    {key : Key} {ends now : Int} (lasting : now < ends)
    (fresh : ∀ entry ∈ map.entries, map.lastSweep < entry.2) (past : map.lastSweep ≤ now) :
    Swept interval (map.claim interval key ends now).2 now := by
  have swept := swept_sweep positive fresh past
  rw [claim_cases distinct]
  split
  · exact swept
  · refine ⟨?_, swept.past, swept.recent⟩
    intro entry inside
    rcases mem_setEntry inside with same | held
    · rw [same]
      exact lt_of_le_of_lt swept.past lasting
    · exact swept.fresh entry held

/-- After a run of claims at instants from the epoch on, nothing is held that ended before the last
sweep. -/
theorem fresh_run (positive : 0 < interval) {Claim : Type} {terms : Claims.Terms Claim Key}
    {ends : Claim → Int} (lasting : ∀ claimed, terms.now claimed < ends claimed)
    {claims : List Claim} {now : Int} (ordered : Claims.Ordered terms claims)
    (epoch : ∀ claimed ∈ claims, 0 ≤ terms.now claimed) (start : 0 ≤ now)
    (onward : ∀ claimed ∈ claims, terms.now claimed ≤ now) :
    (∀ entry ∈ ((store terms ends interval).run claims).1.entries,
        ((store terms ends interval).run claims).1.lastSweep < entry.2) ∧
      ((store terms ends interval).run claims).1.lastSweep ≤ now := by
  induction claims using List.reverseRecOn generalizing now with
  | nil => exact ⟨fun _ inside => absurd inside List.not_mem_nil, start⟩
  | append_singleton claims claimed inductionHypothesis =>
      obtain ⟨before, _, across⟩ := List.pairwise_append.mp ordered
      obtain ⟨fresh, past⟩ := inductionHypothesis before
        (fun other inside => epoch other (List.mem_append_left _ inside))
        (epoch claimed (List.mem_append_right _ List.mem_cons_self))
        (fun other inside => across other inside claimed List.mem_cons_self)
      have swept : Swept interval
          ((store terms ends interval).claim ((store terms ends interval).run claims).1 claimed).2
          (terms.now claimed) :=
        swept_claim positive ((store terms ends interval).valid_run claims) (lasting claimed) fresh
          past
      rw [Claims.Store.state_snoc]
      exact ⟨swept.fresh,
        swept.past.trans (onward claimed (List.mem_append_right _ List.mem_cons_self))⟩

end SweptMap

end Assaybank.Library
