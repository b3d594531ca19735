import Mathlib.Data.List.Basic
import Mathlib.Data.List.Infix

/-!
Owns arrays that are read and changed in place: a memory that holds each at its reference.

Contract: an allocation gives a reference that was not in use, and a change of an array leaves every
other one alone. So a program that changes only what it has allocated keeps all that was there
before (`Kept`, `kept_allocate`, `kept_change`).
-/

namespace Assaybank.Library

/-- The arrays in memory. A reference is the position of its array. -/
structure Arrays (α : Type) where
  stored : List (List α)

namespace Arrays

variable {α : Type} {arrays before after : Arrays α} {ref : Nat} {f : List α → List α}

def size (arrays : Arrays α) : Nat := arrays.stored.length

def contents (arrays : Arrays α) (ref : Nat) : List α := arrays.stored.getD ref []

/-- A new array: where it is, and the memory with it. -/
def allocate (arrays : Arrays α) (items : List α) : Nat × Arrays α :=
  (arrays.size, ⟨arrays.stored ++ [items]⟩)

/-- An array changed in place. -/
def change (arrays : Arrays α) (ref : Nat) (f : List α → List α) : Arrays α :=
  ⟨arrays.stored.modify ref f⟩

/-- Every array of one memory is in another as it was. -/
def Kept (before after : Arrays α) : Prop := before.stored <+: after.stored

@[simp] theorem size_allocate (items : List α) : (arrays.allocate items).2.size = arrays.size + 1 := by
  simp [size, allocate]

@[simp] theorem size_change : (arrays.change ref f).size = arrays.size := by
  simp [size, change]

@[simp] theorem contents_allocate (items : List α) :
    (arrays.allocate items).2.contents arrays.size = items := by
  simp [contents, allocate, size]

theorem contents_change (present : ref < arrays.size) :
    (arrays.change ref f).contents ref = f (arrays.contents ref) := by
  have here : ref < arrays.stored.length := present
  simp [contents, change, here]

theorem contents_change_other {other : Nat} (different : other ≠ ref) :
    (arrays.change ref f).contents other = arrays.contents other := by
  simp [contents, change, Ne.symm different]

/-! ### What is kept -/

theorem Kept.refl (arrays : Arrays α) : arrays.Kept arrays := List.prefix_refl _

theorem Kept.trans {last : Arrays α} (first : before.Kept after) (second : after.Kept last) :
    before.Kept last := List.IsPrefix.trans first second

theorem Kept.contents_eq (kept : before.Kept after) (present : ref < before.size) :
    after.contents ref = before.contents ref := by
  obtain ⟨added, whole⟩ := kept
  have here : ref < before.stored.length := present
  simp [contents, ← whole, List.getElem?_append_left here]

theorem kept_allocate (items : List α) : arrays.Kept (arrays.allocate items).2 :=
  List.prefix_append _ _

/-- A change of an array that was not there before. -/
theorem kept_change (kept : before.Kept after) (new : before.size ≤ ref) :
    before.Kept (after.change ref f) := by
  obtain ⟨added, whole⟩ := kept
  refine ⟨added.modify (ref - before.size) f, ?_⟩
  show before.stored ++ _ = after.stored.modify ref f
  have later : before.stored.length ≤ ref := new
  rw [← whole]
  apply List.ext_getElem?
  intro position
  rw [List.getElem?_modify]
  by_cases old : position < before.stored.length
  · have other : ref ≠ position := by omega
    rw [List.getElem?_append_left old, List.getElem?_append_left old]
    simp only [if_neg other]
    exact (id_map _).symm
  · rw [List.getElem?_append_right (Nat.not_lt.mp old),
      List.getElem?_append_right (Nat.not_lt.mp old), List.getElem?_modify]
    have same : ref - before.size = position - before.stored.length ↔ ref = position := by
      unfold size
      omega
    simp only [same]

end Arrays

end Assaybank.Library
