import Mathlib.Combinatorics.Hall.Basic
import Mathlib.Data.Fintype.Sigma
import Mathlib.Data.Fintype.BigOperators

/-!
Owns the choice of disjoint sets of given sizes from a family of overlapping pools.

Contract: such a choice exists exactly when every subfamily's pools hold together as many elements
as the subfamily demands (`exists_disjoint_choice_iff`). This is Hall's theorem, with one index for
each element demanded.
-/

namespace Assaybank.Library

variable {ι α : Type} [DecidableEq α]

/-- A choice of `demand i` elements of each pool, none of them chosen twice. -/
structure DisjointChoice (pool : ι → Finset α) (demand : ι → Nat) where
  chosen : ι → Finset α
  within : ∀ i, chosen i ⊆ pool i
  enough : ∀ i, (chosen i).card = demand i
  disjoint : ∀ i j, i ≠ j → Disjoint (chosen i) (chosen j)

/-- Every subfamily's pools hold together what it demands. -/
def RoomForAll (pool : ι → Finset α) (demand : ι → Nat) : Prop :=
  ∀ family : Finset ι, ∑ i ∈ family, demand i ≤ (family.biUnion pool).card

instance [Fintype ι] [DecidableEq ι] (pool : ι → Finset α) (demand : ι → Nat) : Decidable (RoomForAll pool demand) :=
  inferInstanceAs (Decidable (∀ _ : Finset ι, _))

section Hall

variable {pool : ι → Finset α} {demand : ι → Nat}

/-- A choice fills no subfamily beyond its pools. -/
theorem DisjointChoice.room (choice : DisjointChoice pool demand) : RoomForAll pool demand := by
  intro family
  calc
    ∑ i ∈ family, demand i = ∑ i ∈ family, (choice.chosen i).card :=
      Finset.sum_congr rfl fun i _ => (choice.enough i).symm
    _ = (family.biUnion choice.chosen).card :=
      (Finset.card_biUnion fun i _ j _ differ => choice.disjoint i j differ).symm
    _ ≤ (family.biUnion pool).card :=
      Finset.card_le_card (Finset.biUnion_mono fun i _ => choice.within i)

/-- The pool of a slot is its index's. -/
private def slotPool (pool : ι → Finset α) (demand : ι → Nat) (slot : Σ i, Fin (demand i)) :
    Finset α := pool slot.1

private theorem slots_room [DecidableEq ι] (room : RoomForAll pool demand)
    (slots : Finset (Σ i, Fin (demand i))) :
    slots.card ≤ (slots.biUnion (slotPool pool demand)).card := by
  have inside : slots ⊆ (slots.image Sigma.fst).sigma fun _ => Finset.univ := by
    intro slot member
    exact Finset.mem_sigma.mpr ⟨Finset.mem_image_of_mem _ member, Finset.mem_univ _⟩
  calc
    slots.card ≤ ((slots.image Sigma.fst).sigma fun i => (Finset.univ : Finset (Fin (demand i)))).card :=
      Finset.card_le_card inside
    _ = ∑ i ∈ slots.image Sigma.fst, demand i := by
      rw [Finset.card_sigma]
      exact Finset.sum_congr rfl fun i _ => by rw [Finset.card_univ, Fintype.card_fin]
    _ ≤ ((slots.image Sigma.fst).biUnion pool).card := room _
    _ = (slots.biUnion (slotPool pool demand)).card := by rw [Finset.image_biUnion]; rfl

/-- Distinct elements for the slots make a choice. -/
private theorem choice_of_slots {pick : (Σ i, Fin (demand i)) → α} (injective : pick.Injective)
    (fits : ∀ slot, pick slot ∈ slotPool pool demand slot) :
    Nonempty (DisjointChoice pool demand) := by
  have slotInjective : ∀ i, Function.Injective fun k : Fin (demand i) => pick ⟨i, k⟩ := by
    intro i left right same
    exact eq_of_heq (Sigma.mk.inj (injective same)).2
  refine ⟨⟨fun i => Finset.univ.image fun k : Fin (demand i) => pick ⟨i, k⟩, ?_, ?_, ?_⟩⟩
  · intro i a member
    obtain ⟨k, _, rfl⟩ := Finset.mem_image.mp member
    exact fits ⟨i, k⟩
  · intro i
    rw [Finset.card_image_of_injective _ (slotInjective i), Finset.card_univ, Fintype.card_fin]
  · intro i j differ
    rw [Finset.disjoint_left]
    intro a left right
    obtain ⟨k, _, rfl⟩ := Finset.mem_image.mp left
    obtain ⟨l, _, same⟩ := Finset.mem_image.mp right
    exact differ (congrArg Sigma.fst (injective same)).symm

/-- A disjoint choice exists exactly where there is room for every subfamily. -/
theorem exists_disjoint_choice_iff [DecidableEq ι] :
    Nonempty (DisjointChoice pool demand) ↔ RoomForAll pool demand := by
  constructor
  · rintro ⟨choice⟩
    exact choice.room
  · intro room
    obtain ⟨pick, injective, fits⟩ :=
      (Finset.all_card_le_biUnion_card_iff_exists_injective (slotPool pool demand)).mp
        (slots_room room)
    exact choice_of_slots injective fits

end Hall

end Assaybank.Library
