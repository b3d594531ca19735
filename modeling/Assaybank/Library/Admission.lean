import Assaybank.Library.OrderedMap
import Mathlib.Data.List.Induction

/-!
Owns admission under a limit: an item is admitted when it was before, or when fewer items than the
limit have been.

Contract: what a run has admitted is the first items of it, as many as the limit allows and each
counted once (`seen_admitAll`), and an item of the run is admitted exactly when it is one of them
(`admitted_iff`).
-/

namespace Assaybank.Library

variable {α : Type} [DecidableEq α]

/-- One item: whether it is admitted, and the items seen so far. -/
def admitOne (limit : Nat) (seen : List α) (item : α) : Bool × List α :=
  if item ∈ seen then (true, seen)
  else if limit ≤ seen.length then (false, seen)
  else (true, seen ++ [item])

/-- The items seen after a run. -/
def admitAll (limit : Nat) (items : List α) : List α :=
  items.foldl (fun seen item => (admitOne limit seen item).2) []

theorem distinct_snoc (items : List α) (item : α) :
    distinct (items ++ [item]) =
      if item ∈ items then distinct items else distinct items ++ [item] := by
  unfold distinct
  rw [List.reverse_append, List.reverse_singleton, List.singleton_append]
  by_cases inside : item ∈ items
  · rw [if_pos inside, List.dedup_cons_of_mem (List.mem_reverse.mpr inside)]
  · rw [if_neg inside, List.dedup_cons_of_notMem (mt List.mem_reverse.mp inside),
      List.reverse_cons]

theorem distinct_grows (items later : List α) : distinct items <+: distinct (items ++ later) := by
  induction later using List.reverseRecOn with
  | nil => simp
  | append_singleton later item inductionHypothesis =>
      rw [← List.append_assoc, distinct_snoc]
      split
      · exact inductionHypothesis
      · exact inductionHypothesis.trans (List.prefix_append _ _)

theorem admitAll_snoc (limit : Nat) (items : List α) (item : α) :
    admitAll limit (items ++ [item]) = (admitOne limit (admitAll limit items) item).2 :=
  List.foldl_append

/-- What a run has admitted is what came first. -/
theorem seen_admitAll (limit : Nat) (items : List α) :
    admitAll limit items = (distinct items).take limit := by
  induction items using List.reverseRecOn with
  | nil => exact List.take_nil.symm
  | append_singleton items item inductionHypothesis =>
      rw [admitAll_snoc, inductionHypothesis, distinct_snoc]
      unfold admitOne
      by_cases admitted : item ∈ (distinct items).take limit
      · have inside := mem_distinct.mp (List.mem_of_mem_take admitted)
        rw [if_pos admitted, if_pos inside]
      · rw [if_neg admitted]
        by_cases inside : item ∈ items
        · rw [if_pos inside]
          have full : limit ≤ ((distinct items).take limit).length := by
            rw [List.length_take]
            by_contra room
            rw [List.take_of_length_le (by omega)] at admitted
            exact admitted (mem_distinct.mpr inside)
          rw [if_pos full]
        · rw [if_neg inside, List.take_append]
          by_cases full : limit ≤ (distinct items).length
          · have none_left : limit - (distinct items).length = 0 := by omega
            rw [if_pos (by rw [List.length_take]; omega), none_left, List.take_zero,
              List.append_nil]
          · have whole : (distinct items).take limit = distinct items :=
              List.take_of_length_le (by omega)
            rw [whole, if_neg full, List.take_of_length_le (l := [item]) (by simp; omega)]

/-- An item is admitted, when it comes, exactly when it is among the first of the whole run. -/
theorem admitted_iff (limit : Nat) (items later : List α) (item : α) :
    (admitOne limit (admitAll limit items) item).1 = true ↔
      item ∈ (distinct (items ++ item :: later)).take limit := by
  have known : (admitOne limit (admitAll limit items) item).1 = true ↔
      item ∈ admitAll limit (items ++ [item]) := by
    rw [admitAll_snoc]
    unfold admitOne
    by_cases seen : item ∈ admitAll limit items
    · rw [if_pos seen]
      exact ⟨fun _ => seen, fun _ => rfl⟩
    · rw [if_neg seen]
      split
      · exact ⟨fun impossible => absurd impossible Bool.false_ne_true,
          fun inside => absurd inside seen⟩
      · exact ⟨fun _ => List.mem_append_right _ List.mem_cons_self, fun _ => rfl⟩
  rw [known, seen_admitAll]
  have first := distinct_grows (items ++ [item]) later
  rw [List.append_assoc, List.singleton_append] at first
  obtain ⟨others, whole⟩ := first
  rw [← whole, List.take_append, List.mem_append]
  constructor
  · exact .inl
  · intro inside
    rcases inside with mine | other
    · exact mine
    · -- the item stands among the first already, and nothing stands twice
      have here : item ∈ distinct (items ++ [item]) :=
        mem_distinct.mpr (List.mem_append_right _ List.mem_cons_self)
      have apart : (distinct (items ++ [item]) ++ others).Nodup := by
        rw [whole]
        exact nodup_distinct _
      exact absurd (List.mem_of_mem_take other) fun later =>
        (List.disjoint_of_nodup_append apart) here later

end Assaybank.Library
