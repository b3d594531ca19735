import Mathlib.Data.List.Nodup

/-!
Owns tables of references, a row for each pair of an owner and what it refers to, and the move of
all references from one target to another: a copy where the owner has none, and a removal.

Contract: the move leaves nothing at the source, one reference at the target for every owner that
had one at the source, and every other row as it was (`moves_moveReferences`).
-/

namespace Assaybank.Library

variable {Row Owner Target : Type} [DecidableEq Owner] [DecidableEq Target]

/-- `INSERT … ON CONFLICT DO NOTHING`, for one row. -/
def insertAbsent {κ : Type} [DecidableEq κ] (key : Row → κ) (rows : List Row) (row : Row) :
    List Row :=
  if key row ∈ rows.map key then rows else rows ++ [row]

/-- New rows under keys of their own are all inserted. -/
theorem foldl_insertAbsent {κ : Type} [DecidableEq κ] {key : Row → κ} {new : List Row}
    (distinct : (new.map key).Nodup) {rows : List Row}
    (fresh : ∀ row ∈ new, key row ∉ rows.map key) :
    new.foldl (insertAbsent key) rows = rows ++ new := by
  induction new generalizing rows with
  | nil => exact (List.append_nil rows).symm
  | cons first rest inductionHypothesis =>
      rw [List.map_cons, List.nodup_cons] at distinct
      rw [List.foldl_cons, insertAbsent, if_neg (fresh first List.mem_cons_self),
        inductionHypothesis distinct.2 ?_, List.append_assoc, List.singleton_append]
      intro row inside present
      rw [List.map_append, List.mem_append] at present
      cases present with
      | inl before => exact fresh row (List.mem_cons_of_mem _ inside) before
      | inr here =>
          have same : key row = key first := List.mem_singleton.mp here
          exact distinct.1 (List.mem_map.mpr ⟨row, inside, same⟩)

/-- How a table's rows are read and pointed elsewhere. -/
structure ReferenceTable (Row Owner Target : Type) where
  owner : Row → Owner
  target : Row → Target
  retarget : Target → Row → Row
  owner_retarget : ∀ target row, owner (retarget target row) = owner row
  target_retarget : ∀ new row, target (retarget new row) = new

namespace ReferenceTable

variable (table : ReferenceTable Row Owner Target) (source target : Target)

def key (row : Row) : Owner × Target := (table.owner row, table.target row)

/-- The source's rows pointed at the target, where their owner has none there. -/
def copies (rows : List Row) : List Row :=
  ((rows.filter fun row => table.target row = source).map (table.retarget target)).filter fun row =>
    table.key row ∉ rows.map table.key

/-- The table once the copies are in and the source's rows are gone. -/
def moveReferences (rows : List Row) : List Row :=
  (rows ++ table.copies source target rows).filter fun row => table.target row ≠ source

/-- Every reference to the source is one to the target, and every other stays. -/
structure Moves (before after : List Row) : Prop where
  gone : ∀ row ∈ after, table.target row ≠ source
  once : ∀ row ∈ before, table.target row = source →
    (after.map table.key).count (table.owner row, target) = 1
  kept : ∀ row ∈ before, table.target row ≠ source → row ∈ after
  onlyMoved : ∀ row ∈ after, row ∈ before ∨ ∃ old ∈ before, table.target old = source ∧
    row = table.retarget target old

variable {table} {source target} {rows : List Row}

theorem mem_copies {row : Row} (copied : row ∈ table.copies source target rows) :
    (∃ old ∈ rows, table.target old = source ∧ row = table.retarget target old) ∧
      table.key row ∉ rows.map table.key := by
  obtain ⟨made, fresh⟩ := List.mem_filter.mp copied
  obtain ⟨old, inside, rfl⟩ := List.mem_map.mp made
  obtain ⟨member, pointed⟩ := List.mem_filter.mp inside
  exact ⟨⟨old, member, of_decide_eq_true pointed, rfl⟩, of_decide_eq_true fresh⟩

omit [DecidableEq Owner] [DecidableEq Target] in
theorem key_retarget (row : Row) :
    table.key (table.retarget target row) = (table.owner row, target) := by
  rw [key, table.owner_retarget, table.target_retarget]

theorem nodup_copies (distinct : (rows.map table.key).Nodup) :
    ((table.copies source target rows).map table.key).Nodup := by
  have sourced : ((rows.filter fun row => table.target row = source).map table.key).Nodup :=
    distinct.sublist (List.filter_sublist.map _)
  have retargeted : (((rows.filter fun row => table.target row = source).map
      (table.retarget target)).map table.key).Nodup := by
    rw [List.map_map]
    apply List.Nodup.map_on ?_ sourced.of_map
    intro left first right second same
    simp only [Function.comp_apply, key_retarget, Prod.mk.injEq, and_true] at same
    apply List.inj_on_of_nodup_map sourced first second
    have leftTarget := of_decide_eq_true (List.mem_filter.mp first).2
    have rightTarget := of_decide_eq_true (List.mem_filter.mp second).2
    rw [key, key, same, leftTarget, rightTarget]
  exact retargeted.sublist (List.filter_sublist.map _)

theorem nodup_append_copies (distinct : (rows.map table.key).Nodup) :
    ((rows ++ table.copies source target rows).map table.key).Nodup := by
  rw [List.map_append, List.nodup_append]
  refine ⟨distinct, nodup_copies distinct, ?_⟩
  intro old inside new copied same
  obtain ⟨row, member, rfl⟩ := List.mem_map.mp copied
  exact (mem_copies member).2 (same ▸ inside)

theorem moves_moveReferences (distinct : (rows.map table.key).Nodup) (apart : source ≠ target) :
    table.Moves source target rows (table.moveReferences source target rows) where
  gone row inside := of_decide_eq_true (List.mem_filter.mp inside).2
  once row inside pointed := by
    apply List.count_eq_one_of_mem
    · exact (nodup_append_copies distinct).sublist (List.filter_sublist.map _)
    · have landed : (table.owner row, target) ∈
          (rows ++ table.copies source target rows).map table.key := by
        rw [List.map_append, List.mem_append]
        by_cases present : (table.owner row, target) ∈ rows.map table.key
        · exact .inl present
        · refine .inr (List.mem_map.mpr ⟨table.retarget target row, ?_, key_retarget row⟩)
          refine List.mem_filter.mpr ⟨List.mem_map_of_mem ?_, ?_⟩
          · exact List.mem_filter.mpr ⟨inside, decide_eq_true pointed⟩
          · rw [key_retarget]
            exact decide_eq_true present
      obtain ⟨found, member, same⟩ := List.mem_map.mp landed
      have elsewhere : table.target found ≠ source := by
        rw [show table.target found = target from congrArg Prod.snd same]
        exact apart.symm
      exact List.mem_map.mpr
        ⟨found, List.mem_filter.mpr ⟨member, decide_eq_true elsewhere⟩, same⟩
  kept row inside elsewhere :=
    List.mem_filter.mpr ⟨List.mem_append_left _ inside, decide_eq_true elsewhere⟩
  onlyMoved row inside := by
    cases List.mem_append.mp (List.mem_filter.mp inside).1 with
    | inl before => exact .inl before
    | inr copied => exact .inr (mem_copies copied).1

end ReferenceTable

end Assaybank.Library
