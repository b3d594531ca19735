import Assaybank.Domain.Unchecked

/-!
Owns what a draw makes of a pool with several rows for one version
(`packages/core-domain/src/draw.ts`).

Contract: the draw takes the first row of a version that matches. So it depends on the order of the
pool exactly when it may serve a version of which two different rows fit (`order_free_iff`), and it
may serve a version that one row says was seen within the window exactly when another row of it fits
(`seen_excluded_iff`).
-/

namespace Assaybank.Domain.Unchecked

open Assaybank.Runtime Assaybank.Library Assaybank.Contracts Assaybank.Db

variable {rule : SectionRule} {pool other : List DrawCandidate}

/-! ### Pools of the same rows -/

theorem feasible_perm (perm : other.Perm pool) : Feasible rule other ↔ Feasible rule pool := by
  unfold Feasible
  simp only [perm.mem_iff]

variable (rule) in
/-- The versions of the eligible rows do not depend on the order of the pool. -/
theorem eligible_ids_perm (perm : other.Perm pool) :
    (eligible rule other).map DrawCandidate.questionVersionId =
      (eligible rule pool).map DrawCandidate.questionVersionId := by
  have sorted (rows : List DrawCandidate) :
      ((eligible rule rows).map DrawCandidate.questionVersionId).Pairwise fun a b => a ≤ b :=
    List.pairwise_map.mpr sorted_eligible
  have perm : ((eligible rule other).map DrawCandidate.questionVersionId).Perm
      ((eligible rule pool).map DrawCandidate.questionVersionId) := by
    rw [List.perm_ext_iff_of_nodup nodup_eligible nodup_eligible]
    intro id
    rw [eligible_ids, eligible_ids]
    simp only [perm.mem_iff]
  exact perm.eq_of_pairwise (fun _ _ _ _ below above => List.le_antisymm below above)
    (sorted other) (sorted pool)

/-- Two fitting rows of one version are one row. -/
def OneRowEach (rule : SectionRule) (pool : List DrawCandidate) : Prop :=
  ∀ row ∈ pool, ∀ twin ∈ pool, row.questionVersionId = twin.questionVersionId →
    Fits rule row → Fits rule twin → row = twin

/-- Where the fitting rows of a version are one row, the eligible rows are those of any order. -/
theorem eligible_perm_of_oneRowEach (valid : Valid rule) (one : OneRowEach rule pool)
    (perm : other.Perm pool) : eligible rule other = eligible rule pool := by
  have ids := eligible_ids_perm rule perm
  have lengths : (eligible rule other).length = (eligible rule pool).length := by
    rw [← List.length_map DrawCandidate.questionVersionId, ids, List.length_map]
  apply List.ext_getElem lengths
  intro k present there
  have same : (eligible rule other)[k].questionVersionId =
      (eligible rule pool)[k].questionVersionId := by
    have found : ((eligible rule other).map DrawCandidate.questionVersionId)[k]? =
        ((eligible rule pool).map DrawCandidate.questionVersionId)[k]? := by rw [ids]
    rw [List.getElem?_map, List.getElem?_map, List.getElem?_eq_getElem present,
      List.getElem?_eq_getElem there] at found
    exact Option.some.inj found
  have left := mem_eligible (List.getElem_mem present)
  have right := mem_eligible (List.getElem_mem there)
  exact one _ (perm.mem_iff.mp left.1) _ right.1 same ((matchesRule_iff valid).mp left.2)
    ((matchesRule_iff valid).mp right.2)

/-- A matching row that stands first is eligible. -/
theorem mem_eligible_head {row : DrawCandidate} (matching : matchesRule rule row = true) :
    row ∈ eligible rule (row :: pool) :=
  eligible_perm.mem_iff.mpr (mem_firstOfEach_head matching List.not_mem_nil)

/-! ### A row that is drawn -/

/-- A generator that always gives the middle of one part of the unit interval. -/
def always (index length : Nat) : Nat → JsDouble := fun _ => middle index length

/-- Any eligible row is drawn first by some generator. -/
theorem drawn_first (valid : Valid rule) (feasible : Feasible rule pool) {index : Nat}
    {row : DrawCandidate} (here : (eligible rule pool)[index]? = some row) :
    ∃ rest, resolveDraw rule pool (always index (eligible rule pool).length) =
      .ok (row :: rest) := by
  obtain ⟨present, here⟩ := List.getElem?_eq_some_iff.mp here
  obtain ⟨count, positive, counted⟩ := valid.pickCount
  have filled : 0 < (eligible rule pool).length := (Nat.zero_le index).trans_lt present
  have chosen : boundedIndex (always index (eligible rule pool).length 0)
      (eligible rule pool).length = index := boundedIndex_middle present
  rw [resolveDraw_of_feasible valid feasible, counted, sliceTo_natCast, shuffleWith, shuffleFrom,
    dif_pos filled]
  obtain ⟨more, rfl⟩ := Nat.exists_eq_succ_of_ne_zero positive.ne'
  simp only [chosen, List.get_eq_getElem, List.take_succ_cons, here]
  exact ⟨_, rfl⟩

/-- A row that fits is drawn first by some generator when the pool begins with it. -/
theorem served_first (valid : Valid rule) (feasible : Feasible rule pool) {row : DrawCandidate}
    (inside : row ∈ pool) (fits : Fits rule row) {index : Nat}
    (here : ((eligible rule pool).map DrawCandidate.questionVersionId)[index]? =
      some row.questionVersionId) :
    ∃ rest, resolveDraw rule (row :: pool.erase row)
      (always index (eligible rule pool).length) = .ok (row :: rest) := by
  have front : (row :: pool.erase row).Perm pool := (List.perm_cons_erase inside).symm
  have ids := eligible_ids_perm rule front
  have lengths : (eligible rule (row :: pool.erase row)).length = (eligible rule pool).length := by
    rw [← List.length_map DrawCandidate.questionVersionId, ids, List.length_map]
  rw [← ids, List.getElem?_map, Option.map_eq_some_iff] at here
  obtain ⟨found, there, foundId⟩ := here
  have isRow : found = row :=
    List.inj_on_of_nodup_map nodup_eligible (List.mem_of_getElem? there)
      (mem_eligible_head ((matchesRule_iff valid).mpr fits)) foundId
  rw [isRow] at there
  rw [← lengths]
  exact drawn_first valid ((feasible_perm front).mpr feasible) there

/-! ### The order of the pool -/

/-- The draw is that of the pool in any order exactly when it fails or no version has two different
rows that fit. -/
theorem order_free_iff (rule : SectionRule) (pool : List DrawCandidate) :
    (∀ other, other.Perm pool → ∀ rng, resolveDraw rule other rng = resolveDraw rule pool rng) ↔
      ¬Valid rule ∨ ¬Feasible rule pool ∨ OneRowEach rule pool := by
  constructor
  · intro free
    by_contra differs
    rw [not_or, not_or, not_not, not_not] at differs
    obtain ⟨valid, feasible, twins⟩ := differs
    apply twins
    intro row inside twin twinInside same fits twinFits
    have eligibleId : row.questionVersionId ∈
        (eligible rule pool).map DrawCandidate.questionVersionId :=
      eligible_ids.mpr ⟨row, inside, (matchesRule_iff valid).mpr fits, rfl⟩
    obtain ⟨index, here⟩ := List.getElem?_of_mem eligibleId
    obtain ⟨rest, drawn⟩ := served_first valid feasible inside fits here
    obtain ⟨twinRest, twinDrawn⟩ :=
      served_first valid feasible twinInside twinFits (here.trans (congrArg some same))
    rw [free _ (List.perm_cons_erase inside).symm] at drawn
    rw [free _ (List.perm_cons_erase twinInside).symm, drawn] at twinDrawn
    cases twinDrawn
    rfl
  · intro settled other perm rng
    by_cases valid : Valid rule
    · by_cases feasible : Feasible rule pool
      · have one : OneRowEach rule pool :=
          (settled.resolve_left (not_not.mpr valid)).resolve_left (not_not.mpr feasible)
        rw [resolveDraw_of_feasible valid feasible,
          resolveDraw_of_feasible valid ((feasible_perm perm).mpr feasible),
          eligible_perm_of_oneRowEach valid one perm]
      · have lengths : (eligible rule other).length = (eligible rule pool).length := by
          rw [← List.length_map DrawCandidate.questionVersionId, eligible_ids_perm rule perm,
            List.length_map]
        have few := not_not.mp (mt (feasible_iff valid).mpr feasible)
        unfold resolveDraw
        rw [validateRule_eq_none.mpr valid]
        simp only [lengths, perm.length_eq, few, if_true]
    · unfold resolveDraw
      cases refused : validateRule rule with
      | some invalid => rfl
      | none => exact absurd (validateRule_eq_none.mp refused) valid

private theorem draws_only {row : DrawCandidate} (valid : validateRule rule = none)
    (one : eligible rule pool = [row]) (single : rule.pickCount = .finite 1)
    (rng : Nat → JsDouble) : resolveDraw rule pool rng = .ok [row] := by
  have shuffled : shuffleWith [row] rng = [row] :=
    List.perm_singleton.mp (shuffleWith_perm [row] rng)
  unfold resolveDraw
  rw [valid]
  simp only [one, single, shuffled]
  rfl

/-- One question was seen a hundred days ago and, says another row, two hundred. The draw serves the
row that comes first. -/
theorem pool_order_shows : ¬∀ (rule : SectionRule) (pool other : List DrawCandidate),
    other.Perm pool → ∀ rng, resolveDraw rule other rng = resolveDraw rule pool rng := by
  intro free
  have earlier : resolveDraw sampleRule [sampleRow "q1" (some (.finite 100)),
      sampleRow "q1" (some (.finite 200))] (fun _ => .nan) =
        .ok [sampleRow "q1" (some (.finite 100))] :=
    draws_only (by decide +kernel) (by decide +kernel) rfl _
  have later : resolveDraw sampleRule [sampleRow "q1" (some (.finite 200)),
      sampleRow "q1" (some (.finite 100))] (fun _ => .nan) =
        .ok [sampleRow "q1" (some (.finite 200))] :=
    draws_only (by decide +kernel) (by decide +kernel) rfl _
  have same := free sampleRule [sampleRow "q1" (some (.finite 100)),
    sampleRow "q1" (some (.finite 200))] _ (List.Perm.swap _ _ _) fun _ => .nan
  rw [earlier, later] at same
  revert same
  decide +kernel

/-! ### The window -/

/-- No version with a row seen within the window is ever drawn exactly when every draw fails or no
such version has another row that fits. -/
theorem seen_excluded_iff (rule : SectionRule) (pool : List DrawCandidate) :
    (∀ rng drawn, resolveDraw rule pool rng = .ok drawn → ∀ row ∈ pool, RecentlySeen rule row →
        row.questionVersionId ∉ drawn.map DrawCandidate.questionVersionId) ↔
      ¬Valid rule ∨ ¬Feasible rule pool ∨
        ∀ row ∈ pool, RecentlySeen rule row → ∀ twin ∈ pool,
          twin.questionVersionId = row.questionVersionId → ¬Fits rule twin := by
  constructor
  · intro never
    by_contra differs
    rw [not_or, not_or, not_not, not_not] at differs
    obtain ⟨valid, feasible, twins⟩ := differs
    apply twins
    intro row inside seen twin twinInside same fits
    have eligibleId : row.questionVersionId ∈
        (eligible rule pool).map DrawCandidate.questionVersionId :=
      eligible_ids.mpr ⟨twin, twinInside, (matchesRule_iff valid).mpr fits, same⟩
    obtain ⟨served, member, sameId⟩ := List.mem_map.mp eligibleId
    obtain ⟨index, here⟩ := List.getElem?_of_mem member
    obtain ⟨rest, drawn⟩ := drawn_first valid feasible here
    apply never _ _ drawn row inside seen
    rw [List.map_cons, sameId]
    exact List.mem_cons_self
  · intro settled rng drawn resolved row inside seen repeated
    obtain ⟨valid, feasible, -⟩ := resolveDraw_eq_ok.mp resolved
    have none := (settled.resolve_left (not_not.mpr valid)).resolve_left (not_not.mpr feasible)
    obtain ⟨served, member, same⟩ := List.mem_map.mp repeated
    have eligible := mem_eligible ((resolveDraw_serves resolved).2.2 served member)
    exact none row inside seen served eligible.1 same ((matchesRule_iff valid).mp eligible.2)

/-- One question was seen ten days ago and, says another row, never. It is served. -/
theorem seen_version_drawn : ¬∀ rule : SectionRule, JsDouble.lt (.finite 0) rule.excludeSeenDays →
    ∀ pool rng drawn, resolveDraw rule pool rng = .ok drawn →
      ∀ row ∈ pool, RecentlySeen rule row →
        row.questionVersionId ∉ drawn.map DrawCandidate.questionVersionId := by
  intro excluded
  have drawn : resolveDraw sampleRule [sampleRow "q1" (some (.finite 10)), sampleRow "q1" none]
      (fun _ => .nan) = .ok [sampleRow "q1" none] :=
    draws_only (by decide +kernel) (by decide +kernel) rfl _
  apply excluded sampleRule (by decide +kernel) _ _ _ drawn _ List.mem_cons_self
  · exact ⟨.finite 10, rfl, by decide +kernel⟩
  · decide +kernel

end Assaybank.Domain.Unchecked
