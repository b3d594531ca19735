import Assaybank.Library.Selection
import Assaybank.Runtime.Number
import Mathlib.SetTheory.Cardinal.Finite

/-!
Owns the shuffle of a list under a generator (`packages/core-domain/src/shuffle.ts`).

Contract: whatever the generator gives, the shuffle is an order of its items; what it gives is only
a position of those that remain at every step, every choice of positions is made by some generator,
and the choices and the orders of distinct items correspond one to one (`shuffleWith_uniform`).
Equal parts of the unit interval are mapped to the positions, up to the rounding of one product at
their ends.
-/

namespace Assaybank.Domain

open Assaybank.Runtime Assaybank.Library

/-- The number computed from the length of an array. An array has fewer than `2 ^ 32` elements; for a
length that no array has, nothing is rounded. -/
def lengthNumber (length : Nat) (exact : ℚ) : JsDouble :=
  if length < 2 ^ 32 then .ofRat exact else .finite exact

/-- A position in a pool of `length`, whatever the generator gave. -/
def boundedIndex (draw : JsDouble) (length : Nat) : Nat :=
  match draw with
  | .finite value =>
      if value < 0 then 0
      else
        match lengthNumber length (value * length) with
        | .finite product =>
            let index := ⌊product⌋.toNat
            if length ≤ index then length - 1 else index
        | _ => length - 1
  | _ => 0

theorem boundedIndex_lt (draw : JsDouble) {length : Nat} (filled : 0 < length) :
    boundedIndex draw length < length := by
  unfold boundedIndex
  split
  · split
    · exact filled
    · split
      · dsimp only
        split
        · omega
        · omega
      · omega
  · exact filled

/-- Positions drawn from the remaining pool until it is empty. `rng k` is what the generator gives
at its call `k`. -/
def shuffleFrom {α : Type} (rng : Nat → JsDouble) (call : Nat) (pool : List α) : List α :=
  if filled : 0 < pool.length then
    let index := boundedIndex (rng call) pool.length
    pool.get ⟨index, boundedIndex_lt (rng call) filled⟩ ::
      shuffleFrom rng (call + 1) (pool.eraseIdx index)
  else []
termination_by pool.length
decreasing_by
  rw [List.length_eraseIdx_of_lt (boundedIndex_lt (rng call) filled)]
  omega

def shuffleWith {α : Type} (items : List α) (rng : Nat → JsDouble) : List α :=
  shuffleFrom rng 0 items

theorem shuffleFrom_perm {α : Type} (rng : Nat → JsDouble) (call : Nat) (pool : List α) :
    (shuffleFrom rng call pool).Perm pool := by
  fun_induction shuffleFrom rng call pool with
  | case1 call pool filled index inductionHypothesis =>
      exact (inductionHypothesis.cons _).trans
        (List.getElem_cons_eraseIdx_perm (boundedIndex_lt (rng call) filled))
  | case2 call pool empty =>
      rw [List.length_eq_zero_iff.mp (Nat.le_zero.mp (Nat.not_lt.mp empty))]

/-! ### Choices -/

/-- The positions that a generator chooses, one at every call. -/
def chosenBy (rng : Nat → JsDouble) (count : Nat) : Choices count := fun k =>
  ⟨boundedIndex (rng k) (count - k), boundedIndex_lt (rng k) (by omega)⟩

/-- The middle of the part of the unit interval which is mapped to a position. -/
def middle (index length : Nat) : JsDouble :=
  lengthNumber length ((2 * index + 1) / (2 * length))

/-- A generator that makes the choices: at call `k` it gives the middle of the part of the position
chosen there. -/
def sourceOf {count : Nat} (choices : Choices count) (call : Nat) : JsDouble :=
  if present : call < count then middle (choices ⟨call, present⟩) (count - call) else .nan

/-! ### The part of a position -/

/-- What is computed from a length is as near as a double is, and not below a whole number that the
exact result reaches. -/
private theorem lengthNumber_near {length : Nat} {exact : ℚ} (low : 0 ≤ exact)
    (high : exact ≤ length) : ∃ number : ℚ, lengthNumber length exact = .finite number ∧
      |number - exact| ≤ 2 ^ (-53 : ℤ) * max 1 exact ∧
      ∀ whole : Nat, whole ≤ length → (whole : ℚ) ≤ exact → whole ≤ number := by
  unfold lengthNumber
  split
  · rename_i short
    have small : |Binary64.nearest exact| ≤ 2 ^ (32 : ℤ) := by
      apply Binary64.abs_nearest_le (Binary64.isDouble_zpow (by norm_num))
      rw [abs_of_nonneg low]
      refine high.trans ?_
      exact_mod_cast short.le
    refine ⟨Binary64.nearest exact, if_neg (not_le.mpr ?_), ?_, ?_⟩
    · rw [Binary64.overflow, ← zpow_natCast]
      exact small.trans_lt (zpow_lt_zpow_right₀ (by norm_num) (by norm_num))
    · have near := Binary64.nearest_near_share exact
      rwa [abs_of_nonneg low] at near
    · intro whole few below
      exact Binary64.le_nearest (Binary64.isDouble_natCast (by omega)) below
  · refine ⟨exact, rfl, ?_, fun _ _ below => below⟩
    rw [sub_self, abs_zero]
    positivity

section Part

variable {draw : ℚ} {index length : Nat}

/-- What a draw of the unit interval is multiplied to. -/
private theorem product_near (low : 0 ≤ draw) (high : draw < 1) (filled : 0 < length) :
    ∃ product : ℚ, boundedIndex (.finite draw) length =
        (if length ≤ ⌊product⌋.toNat then length - 1 else ⌊product⌋.toNat) ∧
      |product - draw * length| ≤ 2 ^ (-53 : ℤ) * length ∧
      ∀ whole : Nat, whole ≤ length → (whole : ℚ) ≤ draw * length → whole ≤ product := by
  have positive : (1 : ℚ) ≤ length := by exact_mod_cast filled
  have below : draw * length ≤ length := mul_le_of_le_one_left (by positivity) high.le
  obtain ⟨product, same, near, reaches⟩ := lengthNumber_near (mul_nonneg low (by positivity)) below
  refine ⟨product, ?_, near.trans ?_, reaches⟩
  · unfold boundedIndex
    simp only [if_neg (not_lt.mpr low), same]
  · exact mul_le_mul_of_nonneg_left (max_le positive below) (by positivity)

/-- A draw that is mapped to a position lies in its part, or rounds up to it. -/
theorem part_of_boundedIndex (low : 0 ≤ draw) (high : draw < 1) (inside : index < length)
    (chosen : boundedIndex (.finite draw) length = index) :
    (index / length : ℚ) - 2 ^ (-53 : ℤ) ≤ draw ∧ draw < ((index + 1 : Nat) / length : ℚ) := by
  have filled : (0 : ℚ) < length := by exact_mod_cast (Nat.zero_le index).trans_lt inside
  obtain ⟨product, value, near, reaches⟩ := product_near low high ((Nat.zero_le index).trans_lt inside)
  rw [value] at chosen
  have placed : (index : ℚ) ≤ product ∧ draw * length < (index + 1 : Nat) := by
    split at chosen
    · rename_i past
      have last : index + 1 = length := by omega
      have whole : (length : Int) ≤ ⌊product⌋ := by omega
      constructor
      · have reached : (length : ℚ) ≤ product := by exact_mod_cast Int.le_floor.mp whole
        have before : (index : ℚ) ≤ length := by exact_mod_cast inside.le
        exact before.trans reached
      · rw [last]
        exact mul_lt_of_lt_one_left filled high
    · have nonnegative : (0 : ℚ) ≤ product := by
        have reached := reaches 0 (Nat.zero_le _) (by rw [Nat.cast_zero]; positivity)
        exact_mod_cast reached
      have floor : ⌊product⌋ = (index : Int) := by
        have above := Int.floor_nonneg.mpr nonnegative
        omega
      obtain ⟨least, less⟩ := Int.floor_eq_iff.mp floor
      refine ⟨by exact_mod_cast least, not_le.mp fun past => ?_⟩
      have reached := reaches (index + 1) inside past
      push_cast at reached less
      linarith
  rw [tsub_le_iff_right, div_le_iff₀ filled, lt_div_iff₀ filled]
  refine ⟨?_, placed.2⟩
  have far := (abs_le.mp near).2
  linarith [placed.1]

/-- A draw in the part of a position is mapped to it, unless it rounds up to the next. -/
theorem boundedIndex_of_part (inside : index < length) (above : (index / length : ℚ) ≤ draw)
    (below : draw < ((index + 1 : Nat) / length : ℚ) - 2 ^ (-53 : ℤ)) :
    boundedIndex (.finite draw) length = index := by
  have filled : (0 : ℚ) < length := by exact_mod_cast (Nat.zero_le index).trans_lt inside
  have low : 0 ≤ draw := le_trans (by positivity) above
  have share : ((index + 1 : Nat) / length : ℚ) ≤ 1 := by
    rw [div_le_one filled]
    exact_mod_cast inside
  have high : draw < 1 := by
    have apart : (0 : ℚ) < 2 ^ (-53 : ℤ) := by positivity
    linarith
  obtain ⟨product, value, near, reaches⟩ := product_near low high ((Nat.zero_le index).trans_lt inside)
  rw [div_le_iff₀ filled] at above
  rw [lt_sub_iff_add_lt, lt_div_iff₀ filled] at below
  have start := reaches index inside.le above
  have far := (abs_le.mp near).2
  have floor : ⌊product⌋ = (index : Int) := by
    rw [Int.floor_eq_iff]
    push_cast at below ⊢
    exact ⟨start, by linarith⟩
  rw [value, floor, Int.toNat_natCast, if_neg (not_le.mpr inside)]

/-- The middle of a part is mapped to its position. -/
theorem boundedIndex_middle (inside : index < length) :
    boundedIndex (middle index length) length = index := by
  have filled : (0 : ℚ) < length := by exact_mod_cast (Nat.zero_le index).trans_lt inside
  have start : (index / length : ℚ) = (2 * index + 1) / (2 * length) - 1 / (2 * length) := by
    field_simp
    ring
  have finish : ((index + 1 : Nat) / length : ℚ) =
      (2 * index + 1) / (2 * length) + 1 / (2 * length) := by
    push_cast
    field_simp
    ring
  have low : (0 : ℚ) ≤ (2 * index + 1) / (2 * length) := by positivity
  have high : ((2 * index + 1) / (2 * length) : ℚ) ≤ 1 := by
    rw [div_le_one (by positivity)]
    exact_mod_cast (by omega : 2 * index + 1 ≤ 2 * length)
  have one : (1 : ℚ) ≤ length := by exact_mod_cast (Nat.zero_le index).trans_lt inside
  by_cases short : length < 2 ^ 32
  · have half : (2 : ℚ) ^ (-33 : ℤ) ≤ 1 / (2 * length) := by
      rw [le_div_iff₀ (by positivity)]
      have bounded : (length : ℚ) ≤ 2 ^ 32 := by exact_mod_cast short.le
      norm_num
      linarith
    have apart : 2 * (2 : ℚ) ^ (-53 : ℤ) < 2 ^ (-33 : ℤ) := by norm_num
    obtain ⟨draw, same, near, -⟩ := lengthNumber_near low (high.trans one)
    rw [max_eq_left high, mul_one] at near
    obtain ⟨left, right⟩ := abs_le.mp near
    rw [middle, same]
    apply boundedIndex_of_part inside
    · linarith
    · linarith
  · -- No array is this long, and nothing is rounded.
    have product : ((2 * index + 1) / (2 * length) : ℚ) * length = index + 1 / 2 := by
      field_simp
    have floor : ⌊(index : ℚ) + 1 / 2⌋ = (index : Int) := by
      rw [Int.floor_eq_iff]
      push_cast
      constructor
      · linarith
      · linarith
    unfold middle boundedIndex lengthNumber
    simp only [if_neg short, if_neg (not_lt.mpr low), product, floor, Int.toNat_natCast,
      if_neg (not_le.mpr inside)]

end Part

theorem chosenBy_sourceOf {count : Nat} (choices : Choices count) :
    chosenBy (sourceOf choices) count = choices := by
  funext k
  apply Fin.val_injective
  show boundedIndex (sourceOf choices k) (count - k) = choices k
  rw [sourceOf, dif_pos k.isLt]
  exact boundedIndex_middle (choices k).isLt

/-- The shuffle picks its items by the positions of the generator. -/
theorem shuffleFrom_eq_picked {α : Type} (rng : Nat → JsDouble) (call : Nat) (pool : List α) :
    shuffleFrom rng call pool = picked pool
      (List.ofFn fun k : Fin pool.length => boundedIndex (rng (call + k)) (pool.length - k)) := by
  fun_induction shuffleFrom rng call pool with
  | case1 call pool filled index inductionHypothesis =>
      have inside : index < pool.length := boundedIndex_lt (rng call) filled
      have shorter := List.length_eraseIdx_of_lt inside
      have positions : (List.ofFn fun k : Fin pool.length =>
          boundedIndex (rng (call + k)) (pool.length - k)) =
          index :: List.ofFn fun k : Fin (pool.eraseIdx index).length =>
            boundedIndex (rng (call + 1 + k)) ((pool.eraseIdx index).length - k) := by
        apply List.ext_getElem
        · simp only [List.length_ofFn, List.length_cons]
          omega
        · intro k present _
          rw [List.getElem_ofFn]
          cases k with
          | zero => rfl
          | succ k =>
              have remaining : pool.length - (k + 1) = (pool.eraseIdx index).length - k := by omega
              have later : call + (k + 1) = call + 1 + k := by omega
              rw [List.getElem_cons_succ, List.getElem_ofFn]
              show boundedIndex (rng (call + (k + 1))) (pool.length - (k + 1)) = _
              rw [remaining, later]
      rw [positions, picked_cons inside, inductionHypothesis]
      rfl
  | case2 call pool empty =>
      rw [List.length_eq_zero_iff.mp (Nat.le_zero.mp (Nat.not_lt.mp empty))]
      rfl

theorem shuffleWith_eq_arranged {α : Type} (items : List α) (rng : Nat → JsDouble) :
    shuffleWith items rng = arranged items (chosenBy rng items.length) := by
  rw [shuffleWith, shuffleFrom_eq_picked, arranged]
  simp only [Nat.zero_add]
  rfl

theorem shuffleWith_perm {α : Type} (items : List α) (rng : Nat → JsDouble) :
    (shuffleWith items rng).Perm items := shuffleFrom_perm rng 0 items

theorem shuffleWith_sourceOf {α : Type} (items : List α) (choices : Choices items.length) :
    shuffleWith items (sourceOf choices) = arranged items choices := by
  rw [shuffleWith_eq_arranged, chosenBy_sourceOf]

/-- The shuffle is fair: an order whatever the generator gives, which its choices alone decide, all
of them made by some generator, one choice for every order of distinct items and as many for every
start of a given length. -/
theorem shuffleWith_uniform {α : Type} {items : List α} (distinct : items.Nodup) :
    (∀ rng, (shuffleWith items rng).Perm items) ∧
      (∀ rng, shuffleWith items rng =
        shuffleWith items (sourceOf (chosenBy rng items.length))) ∧
      (∀ choices : Choices items.length, chosenBy (sourceOf choices) items.length = choices) ∧
      (∀ draw : ℚ, 0 ≤ draw → draw < 1 → ∀ length index : Nat, index < length →
        (boundedIndex (.finite draw) length = index →
          (index / length : ℚ) - 2 ^ (-53 : ℤ) ≤ draw ∧ draw < ((index + 1 : Nat) / length : ℚ)) ∧
        ((index / length : ℚ) ≤ draw → draw < ((index + 1 : Nat) / length : ℚ) - 2 ^ (-53 : ℤ) →
          boundedIndex (.finite draw) length = index)) ∧
      Function.Bijective (fun choices : Choices items.length =>
        (⟨shuffleWith items (sourceOf choices), shuffleWith_perm items _⟩ :
          { order : List α // order.Perm items })) ∧
      ∀ start : List α, start.Nodup → (∀ item ∈ start, item ∈ items) →
        Nat.card { choices : Choices items.length //
            (shuffleWith items (sourceOf choices)).take start.length = start } =
          (items.length - start.length).factorial := by
  refine ⟨shuffleWith_perm items, ?_, chosenBy_sourceOf, ?_, ?_, ?_⟩
  · intro rng
    rw [shuffleWith_sourceOf, shuffleWith_eq_arranged]
  · intro draw low high length index inside
    exact ⟨part_of_boundedIndex low high inside, boundedIndex_of_part inside⟩
  · simp only [shuffleWith_sourceOf]
    exact arranged_bijective distinct
  · intro start startDistinct known
    classical
    simp only [shuffleWith_sourceOf]
    rw [Nat.card_eq_fintype_card, Fintype.card_subtype]
    exact card_prefix distinct startDistinct known

/-- Of the six choices for three items, two begin with the second. -/
theorem shuffleWith_uniform_example :
    Nat.card { choices : Choices [1, 2, 3].length //
        (shuffleWith [1, 2, 3] (sourceOf choices)).take [2].length = [2] } = 2 :=
  (shuffleWith_uniform (by decide : [1, 2, 3].Nodup)).2.2.2.2.2 [2] (by decide) (by decide)

end Assaybank.Domain
