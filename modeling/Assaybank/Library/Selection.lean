import Mathlib.Data.Finset.Card
import Mathlib.Data.List.Nodup
import Mathlib.Data.List.Permutation
import Mathlib.Data.Fintype.Pi

/-!
Owns two ways of selecting from a list: the first item of each key, and items picked one after
another by position from those that remain.

Contract: the first items hold every key that fits once (`mem_firstOfEach`, `firstOfEach_takes`,
`nodup_firstOfEach`). Choices of positions and orders of distinct items correspond one to one
(`picked_perm`, `picked_injective`, `picked_surjective`), and so every prefix of an order comes from
as many choices as any other of its length (`card_prefix`).
-/

namespace Assaybank.Library

/-! ### The first item of each key -/

section FirstOfEach

variable {α κ : Type} [BEq κ] [LawfulBEq κ] {key : α → κ} {fits : α → Bool}

variable (key fits) in
/-- The first item of each key among those that fit, where the keys of `taken` are taken. -/
def firstOfEach (taken : List κ) : List α → List α
  | [] => []
  | item :: rest =>
      if taken.contains (key item) || !fits item then firstOfEach taken rest
      else item :: firstOfEach (key item :: taken) rest

theorem mem_firstOfEach {taken : List κ} {items : List α} {item : α}
    (inside : item ∈ firstOfEach key fits taken items) :
    item ∈ items ∧ fits item = true ∧ key item ∉ taken := by
  induction items generalizing taken with
  | nil => cases inside
  | cons first rest inductionHypothesis =>
      unfold firstOfEach at inside
      split at inside
      · have later := inductionHypothesis inside
        exact ⟨List.mem_cons_of_mem _ later.1, later.2⟩
      · rename_i kept
        simp only [Bool.or_eq_true, Bool.not_eq_true', not_or, List.contains_iff_mem,
          Bool.not_eq_false] at kept
        cases List.mem_cons.mp inside with
        | inl here =>
            subst here
            exact ⟨List.mem_cons_self, kept.2, kept.1⟩
        | inr after =>
            have later := inductionHypothesis after
            exact ⟨List.mem_cons_of_mem _ later.1, later.2.1,
              fun found => later.2.2 (List.mem_cons_of_mem _ found)⟩

theorem firstOfEach_takes {taken : List κ} {items : List α} {item : α} (inside : item ∈ items)
    (fitting : fits item = true) (fresh : key item ∉ taken) :
    key item ∈ (firstOfEach key fits taken items).map key := by
  induction items generalizing taken with
  | nil => cases inside
  | cons first rest inductionHypothesis =>
      unfold firstOfEach
      by_cases same : key item = key first
      · by_cases suits : fits first = true
        · have unseen : key first ∉ taken := same ▸ fresh
          rw [if_neg (by simp [unseen, suits]), List.map_cons, same]
          exact List.mem_cons_self
        · cases List.mem_cons.mp inside with
          | inl here => exact absurd (here ▸ fitting) suits
          | inr after =>
              rw [if_pos (by simp [suits])]
              exact inductionHypothesis after fresh
      · have after : item ∈ rest := by
          cases List.mem_cons.mp inside with
          | inl here => exact absurd (congrArg key here) same
          | inr after => exact after
        split
        · exact inductionHypothesis after fresh
        · rw [List.map_cons]
          apply List.mem_cons_of_mem
          apply inductionHypothesis after
          rw [List.mem_cons, not_or]
          exact ⟨same, fresh⟩

theorem nodup_firstOfEach (taken : List κ) (items : List α) :
    ((firstOfEach key fits taken items).map key).Nodup := by
  induction items generalizing taken with
  | nil => exact List.nodup_nil
  | cons first rest inductionHypothesis =>
      unfold firstOfEach
      split
      · exact inductionHypothesis taken
      · rw [List.map_cons, List.nodup_cons]
        refine ⟨?_, inductionHypothesis _⟩
        intro repeated
        obtain ⟨item, inside, same⟩ := List.mem_map.mp repeated
        apply (mem_firstOfEach inside).2.2
        rw [same]
        exact List.mem_cons_self

/-- An item that fits and stands first is the one of its key. -/
theorem mem_firstOfEach_head {taken : List κ} {item : α} {rest : List α}
    (fitting : fits item = true) (fresh : key item ∉ taken) :
    item ∈ firstOfEach key fits taken (item :: rest) := by
  unfold firstOfEach
  rw [if_neg (by simp [fitting, fresh])]
  exact List.mem_cons_self

end FirstOfEach

/-! ### Items picked by position -/

section Picked

variable {α : Type}

/-- Items picked one after another, each at a position of those that remain. -/
def picked : List α → List Nat → List α
  | _, [] => []
  | items, index :: rest =>
      match items[index]? with
      | none => []
      | some item => item :: picked (items.eraseIdx index) rest

/-- Every position is one of those that remain. -/
def Within : Nat → List Nat → Prop
  | _, [] => True
  | count, index :: rest => index < count ∧ Within (count - 1) rest

theorem picked_cons {items : List α} {index : Nat} (inside : index < items.length)
    (rest : List Nat) :
    picked items (index :: rest) = items[index] :: picked (items.eraseIdx index) rest := by
  show (match items[index]? with
    | none => []
    | some item => item :: picked (items.eraseIdx index) rest) = _
  rw [List.getElem?_eq_getElem inside]

theorem within_iff {count : Nat} {choices : List Nat} :
    Within count choices ↔ ∀ k (present : k < choices.length), choices[k] < count - k := by
  induction choices generalizing count with
  | nil => exact iff_of_true trivial fun k present => absurd present (Nat.not_lt_zero k)
  | cons index rest inductionHypothesis =>
      show index < count ∧ Within (count - 1) rest ↔ _
      rw [inductionHypothesis]
      constructor
      · rintro ⟨first, later⟩ k present
        cases k with
        | zero => exact first
        | succ k =>
            have next := later k (Nat.lt_of_succ_lt_succ present)
            rw [List.getElem_cons_succ]
            omega
      · intro each
        refine ⟨each 0 (Nat.zero_lt_succ _), fun k present => ?_⟩
        have next := each (k + 1) (Nat.succ_lt_succ present)
        rw [List.getElem_cons_succ] at next
        omega

theorem picked_perm {items : List α} {choices : List Nat} (within : Within items.length choices)
    (full : choices.length = items.length) : (picked items choices).Perm items := by
  induction choices generalizing items with
  | nil => rw [List.length_eq_zero_iff.mp full.symm]; rfl
  | cons index rest inductionHypothesis =>
      have shorter := List.length_eraseIdx_of_lt within.1
      rw [picked_cons within.1]
      have later : (picked (items.eraseIdx index) rest).Perm (items.eraseIdx index) := by
        apply inductionHypothesis
        · rw [shorter]
          exact within.2
        · rw [shorter, ← full, List.length_cons, Nat.add_sub_cancel]
      exact (later.cons _).trans (List.getElem_cons_eraseIdx_perm within.1)

/-- Two choices that give one order of distinct items are one choice. -/
theorem picked_injective {items : List α} (distinct : items.Nodup) {left right : List Nat}
    (leftWithin : Within items.length left) (rightWithin : Within items.length right)
    (lengths : left.length = right.length) (same : picked items left = picked items right) :
    left = right := by
  induction left generalizing items right with
  | nil => exact (List.length_eq_zero_iff.mp lengths.symm).symm
  | cons index rest inductionHypothesis =>
      cases right with
      | nil => cases lengths
      | cons other more =>
          rw [picked_cons leftWithin.1, picked_cons rightWithin.1, List.cons.injEq] at same
          have here : index = other := (distinct.getElem_inj_iff).mp same.1
          subst here
          rw [List.cons.injEq]
          refine ⟨rfl, inductionHypothesis (distinct.eraseIdx index) ?_ ?_
            (Nat.succ_injective lengths) same.2⟩
          · rw [List.length_eraseIdx_of_lt leftWithin.1]
            exact leftWithin.2
          · rw [List.length_eraseIdx_of_lt leftWithin.1]
            exact rightWithin.2

/-- Every order comes from a choice. -/
theorem picked_surjective {items order : List α} (perm : order.Perm items) :
    ∃ choices, choices.length = items.length ∧ Within items.length choices ∧
      picked items choices = order := by
  induction order generalizing items with
  | nil =>
      rw [List.nil_perm.mp perm]
      exact ⟨[], rfl, trivial, rfl⟩
  | cons first rest inductionHypothesis =>
      obtain ⟨index, inside, here⟩ :=
        List.getElem_of_mem (perm.mem_iff.mp List.mem_cons_self)
      have left : rest.Perm (items.eraseIdx index) := by
        have put := List.getElem_cons_eraseIdx_perm inside
        rw [here] at put
        exact (perm.trans put.symm).cons_inv
      obtain ⟨choices, full, within, order⟩ := inductionHypothesis left
      have shorter := List.length_eraseIdx_of_lt inside
      refine ⟨index :: choices, ?_, ⟨inside, ?_⟩, ?_⟩
      · rw [List.length_cons, full, shorter]
        omega
      · rw [← shorter]
        exact within
      · rw [picked_cons inside, here, order]

/-! ### Choices and orders -/

/-- A position at every step, of as many items as remain there. -/
abbrev Choices (count : Nat) : Type := (k : Fin count) → Fin (count - k)

/-- The order that choices give. -/
def arranged (items : List α) (choices : Choices items.length) : List α :=
  picked items (List.ofFn fun k => (choices k).val)

private theorem within_ofFn {count : Nat} (choices : Choices count) :
    Within count (List.ofFn fun k => (choices k).val) := by
  rw [within_iff]
  intro k present
  rw [List.getElem_ofFn]
  exact (choices _).isLt

private theorem choices_of_within {count : Nat} {positions : List Nat}
    (full : positions.length = count) (within : Within count positions) :
    ∃ choices : Choices count, (List.ofFn fun k => (choices k).val) = positions := by
  rw [within_iff] at within
  refine ⟨fun k => ⟨positions.get ⟨k.val, by omega⟩, within k.val (by omega)⟩, ?_⟩
  apply List.ext_getElem
  · rw [List.length_ofFn, full]
  · intro k present there
    rw [List.getElem_ofFn]
    rfl

theorem arranged_perm (items : List α) (choices : Choices items.length) :
    (arranged items choices).Perm items :=
  picked_perm (within_ofFn choices) List.length_ofFn

theorem arranged_injective {items : List α} (distinct : items.Nodup) :
    Function.Injective (arranged items) := by
  intro left right same
  have positions := picked_injective distinct (within_ofFn left) (within_ofFn right)
    (by rw [List.length_ofFn, List.length_ofFn]) same
  funext k
  apply Fin.val_injective
  exact congrFun (List.ofFn_injective positions) k

theorem arranged_surjective {items order : List α} (perm : order.Perm items) :
    ∃ choices, arranged items choices = order := by
  obtain ⟨positions, full, within, gives⟩ := picked_surjective perm
  obtain ⟨choices, same⟩ := choices_of_within full within
  refine ⟨choices, ?_⟩
  rw [arranged, same, gives]

/-- Choices and orders of distinct items correspond one to one. -/
theorem arranged_bijective {items : List α} (distinct : items.Nodup) :
    Function.Bijective fun choices : Choices items.length =>
      (⟨arranged items choices, arranged_perm items choices⟩ :
        { order : List α // order.Perm items }) := by
  constructor
  · intro left right same
    exact arranged_injective distinct (Subtype.mk.inj same)
  · rintro ⟨order, perm⟩
    obtain ⟨choices, gives⟩ := arranged_surjective perm
    exact ⟨choices, Subtype.ext gives⟩

/-- Every start of an order comes from as many choices as there are orders of the rest. -/
theorem card_prefix [DecidableEq α] {items start : List α} (distinct : items.Nodup)
    (startDistinct : start.Nodup) (known : ∀ item ∈ start, item ∈ items) :
    (Finset.univ.filter fun choices : Choices items.length =>
        (arranged items choices).take start.length = start).card =
      (items.length - start.length).factorial := by
  have whole : (start ++ items.diff start).Perm items :=
    List.subperm_append_diff_self_of_count_le fun item inside => by
      rw [List.count_eq_one_of_mem startDistinct inside,
        List.count_eq_one_of_mem distinct (known item inside)]
  have rest : (items.diff start).length = items.length - start.length := by
    have lengths := whole.length_eq
    rw [List.length_append] at lengths
    omega
  have restDistinct : (items.diff start).Nodup := distinct.diff
  rw [← rest, ← List.length_permutations, ← List.toFinset_card_of_nodup
    (List.nodup_permutations _ restDistinct)]
  apply Finset.card_bij fun choices _ => (arranged items choices).drop start.length
  · intro choices here
    have split := List.take_append_drop start.length (arranged items choices)
    rw [(Finset.mem_filter.mp here).2] at split
    rw [List.mem_toFinset, List.mem_permutations]
    apply (List.perm_append_left_iff start).mp
    rw [split]
    exact (arranged_perm items choices).trans whole.symm
  · intro left leftHere right rightHere same
    apply arranged_injective distinct
    rw [← List.take_append_drop start.length (arranged items left),
      ← List.take_append_drop start.length (arranged items right), same,
      (Finset.mem_filter.mp leftHere).2, (Finset.mem_filter.mp rightHere).2]
  · intro tail inside
    rw [List.mem_toFinset, List.mem_permutations] at inside
    obtain ⟨choices, gives⟩ :=
      arranged_surjective ((inside.append_left start).trans whole)
    refine ⟨choices, ?_, ?_⟩
    · rw [Finset.mem_filter, gives, List.take_left]
      exact ⟨Finset.mem_univ _, rfl⟩
    · rw [gives, List.drop_left]

end Picked

end Assaybank.Library
