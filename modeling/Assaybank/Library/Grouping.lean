import Mathlib.Data.List.Basic
import Mathlib.Algebra.Order.BigOperators.Group.List
import Mathlib.Algebra.GroupWithZero.Nat

/-!
Owns the cutting of a list at the elements that start something: what stands before the first of
them, and each of them with what follows it.

Contract: the groups are the list again (`ungroup_groupsOf`), where each group starts determines
them (`ungroup_inj`), and what holds group by group holds element by element (`grouped_iff`).
`splits` cuts a list at each of its elements.
-/

namespace Assaybank.Library

variable {α : Type}

/-- What stands before the first start, and each start with what follows it up to the next. -/
def groupsOf (starts : α → Bool) : List α → List α × List (α × List α)
  | [] => ([], [])
  | a :: rest =>
      if starts a then ([], (a, (groupsOf starts rest).1) :: (groupsOf starts rest).2)
      else (a :: (groupsOf starts rest).1, (groupsOf starts rest).2)

/-- Every element of a list, with what stands before it and after it. -/
def splits : List α → List (List α × α × List α)
  | [] => []
  | a :: rest => ([], a, rest) :: (splits rest).map fun split => (a :: split.1, split.2)

theorem mem_splits {items before after : List α} {a : α} :
    (before, a, after) ∈ splits items ↔ items = before ++ a :: after := by
  induction items generalizing before with
  | nil => simp [splits]
  | cons b rest inductionHypothesis =>
      rw [splits, List.mem_cons, List.mem_map]
      constructor
      · rintro (first | ⟨⟨before', split⟩, inside, same⟩)
        · simp only [Prod.mk.injEq] at first
          obtain ⟨rfl, rfl, rfl⟩ := first
          rfl
        · simp only [Prod.mk.injEq] at same
          obtain ⟨rfl, rfl⟩ := same
          rw [inductionHypothesis.mp inside, List.cons_append]
      · intro split
        cases before with
        | nil =>
            obtain ⟨rfl, rfl⟩ := List.cons.inj split
            exact .inl rfl
        | cons c before =>
            obtain ⟨rfl, later⟩ := List.cons.inj split
            exact .inr ⟨(before, a, after), inductionHypothesis.mpr later, rfl⟩

/-- The elements of a list that was cut. -/
def ungroup (before : List α) (groups : List (α × List α)) : List α :=
  before ++ groups.flatMap fun group => group.1 :: group.2

theorem ungroup_cons (before : List α) (a : α) (tail : List α) (groups : List (α × List α)) :
    ungroup before ((a, tail) :: groups) = before ++ a :: ungroup tail groups := by
  simp [ungroup]

theorem ungroup_groupsOf (starts : α → Bool) (items : List α) :
    ungroup (groupsOf starts items).1 (groupsOf starts items).2 = items := by
  induction items with
  | nil => rfl
  | cons a rest inductionHypothesis =>
      rw [groupsOf]
      split
      · rw [ungroup_cons, inductionHypothesis, List.nil_append]
      · rw [ungroup, List.cons_append]
        exact congrArg (a :: ·) inductionHypothesis

theorem mem_groupsOf (starts : α → Bool) {items : List α} {b : α} (inside : b ∈ items) :
    b ∈ (groupsOf starts items).1 ∨
      ∃ group ∈ (groupsOf starts items).2, b = group.1 ∨ b ∈ group.2 := by
  rw [← ungroup_groupsOf starts items, ungroup, List.mem_append, List.mem_flatMap] at inside
  rcases inside with before | ⟨group, known, inGroup⟩
  · exact .inl before
  · exact .inr ⟨group, known, List.mem_cons.mp inGroup⟩

theorem of_mem_before {starts : α → Bool} {items : List α} {b : α}
    (before : b ∈ (groupsOf starts items).1) : b ∈ items ∧ starts b = false := by
  induction items with
  | nil => cases before
  | cons a rest inductionHypothesis =>
      rw [groupsOf] at before
      split at before
      · cases before
      · rename_i other
        rcases List.mem_cons.mp before with rfl | later
        · exact ⟨List.mem_cons_self, Bool.eq_false_iff.mpr other⟩
        · obtain ⟨inside, plain⟩ := inductionHypothesis later
          exact ⟨List.mem_cons_of_mem _ inside, plain⟩

theorem starts_of_mem_groups {starts : α → Bool} {items : List α} {group : α × List α}
    (known : group ∈ (groupsOf starts items).2) : starts group.1 = true := by
  induction items with
  | nil => cases known
  | cons a rest inductionHypothesis =>
      rw [groupsOf] at known
      split at known
      · rename_i start
        rcases List.mem_cons.mp known with rfl | later
        · exact start
        · exact inductionHypothesis later
      · exact inductionHypothesis known

/-! ### Where groups start -/

section Offsets

variable (size : α → Nat)

/-- How much a list takes. -/
def total (items : List α) : Nat := (items.map size).sum

/-- Where each group starts, the first of them at some place. -/
def offsets : Nat → List (α × List α) → List Nat
  | _, [] => []
  | place, (a, tail) :: rest => place :: offsets (place + size a + total size tail) rest

variable {size}

/-- Two beginnings of one list that take as much are one. -/
theorem append_eq_of_total (positive : ∀ a, 0 < size a) {before before' rest rest' : List α}
    (same : before ++ rest = before' ++ rest') (equal : total size before = total size before') :
    before = before' ∧ rest = rest' := by
  induction before generalizing before' with
  | nil =>
      cases before' with
      | nil => exact ⟨rfl, same⟩
      | cons a others =>
          have here := positive a
          simp [total] at equal
          omega
  | cons a others inductionHypothesis =>
      cases before' with
      | nil =>
          have here := positive a
          simp [total] at equal
          omega
      | cons b others' =>
          rw [List.cons_append, List.cons_append, List.cons.injEq] at same
          obtain ⟨rfl, same⟩ := same
          have shorter : total size others = total size others' := by simpa [total] using equal
          obtain ⟨rfl, tail⟩ := inductionHypothesis same shorter
          exact ⟨rfl, tail⟩

/-- A list is cut in one way at the same places. -/
theorem ungroup_inj (positive : ∀ a, 0 < size a) {before before' : List α}
    {groups groups' : List (α × List α)} {place : Nat}
    (same : ungroup before groups = ungroup before' groups')
    (starts : offsets size (place + total size before) groups =
      offsets size (place + total size before') groups') :
    before = before' ∧ groups = groups' := by
  induction groups generalizing before before' groups' place with
  | nil =>
      cases groups' with
      | nil => exact ⟨by simpa [ungroup] using same, rfl⟩
      | cons group others => cases starts
  | cons group others inductionHypothesis =>
      obtain ⟨a, tail⟩ := group
      cases groups' with
      | nil => cases starts
      | cons group' others' =>
          obtain ⟨b, tail'⟩ := group'
          rw [ungroup_cons, ungroup_cons] at same
          rw [offsets, offsets, List.cons.injEq] at starts
          obtain ⟨rfl, tails⟩ := append_eq_of_total positive same (by omega)
          obtain ⟨rfl, after⟩ := List.cons.inj tails
          obtain ⟨rfl, rfl⟩ := inductionHypothesis after starts.2
          exact ⟨rfl, rfl⟩

end Offsets

/-! ### Properties of groups -/

/-- Nothing before the first start is wanted, each start is right, and what follows it is idle:
this is so element by element. -/
theorem grouped_iff {starts : α → Bool} {Wanted Right Idle : α → Prop}
    (idle : ∀ a, Idle a → ¬ Wanted a) (items : List α) :
    ((∀ a ∈ (groupsOf starts items).1, ¬ Wanted a) ∧
        ∀ group ∈ (groupsOf starts items).2, Right group.1 ∧ ∀ b ∈ group.2, Idle b) ↔
      (∀ a ∈ items, starts a = true → Right a) ∧ (∀ a ∈ items, starts a = false → ¬ Wanted a) ∧
        items.Pairwise fun a b => starts a = true → starts b = false → Idle b := by
  induction items with
  | nil => simp [groupsOf]
  | cons a rest inductionHypothesis =>
      rw [groupsOf, List.forall_mem_cons, List.forall_mem_cons, List.pairwise_cons]
      by_cases start : starts a = true
      · rw [if_pos start]
        simp only [List.not_mem_nil, false_implies, implies_true, true_and, List.forall_mem_cons,
          start, forall_const, Bool.true_eq_false]
        constructor
        · rintro ⟨⟨right, idles⟩, others⟩
          obtain ⟨rights, unwanted, pairs⟩ :=
            inductionHypothesis.mp ⟨fun b before => idle b (idles b before), others⟩
          refine ⟨⟨right, rights⟩, unwanted, ?_, pairs⟩
          intro b inside plain
          rcases mem_groupsOf starts inside with before | ⟨group, known, here⟩
          · exact idles b before
          · rcases here with rfl | tail
            · rw [starts_of_mem_groups known] at plain
              cases plain
            · exact (others group known).2 b tail
        · rintro ⟨⟨right, rights⟩, unwanted, idles, pairs⟩
          refine ⟨⟨right, ?_⟩, (inductionHypothesis.mpr ⟨rights, unwanted, pairs⟩).2⟩
          intro b before
          obtain ⟨inside, plain⟩ := of_mem_before before
          exact idles b inside plain
      · rw [if_neg start]
        have plain := Bool.eq_false_iff.mpr start
        simp only [List.forall_mem_cons, plain, Bool.false_eq_true, false_implies, true_and,
          implies_true, forall_const, and_assoc]
        constructor
        · rintro ⟨unwanted, others⟩
          obtain ⟨rights, rest, pairs⟩ := inductionHypothesis.mp others
          exact ⟨rights, unwanted, rest, pairs⟩
        · rintro ⟨rights, unwanted, rest, pairs⟩
          exact ⟨unwanted, inductionHypothesis.mpr ⟨rights, rest, pairs⟩⟩

end Assaybank.Library
