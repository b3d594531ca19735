import Assaybank.Library.Admission
import Assaybank.Runtime.Text
import Mathlib.Algebra.BigOperators.Group.List.Basic
import Mathlib.Data.List.Sections

/-!
Owns the series budget of a metric family (`packages/observability/src/metrics.ts`, `SeriesGuard`):
a caller's labels folded into the declared, closed shape, and the observations that are dropped.

Contract: since the last reset, the first label values of the run are served, as many as the budget
allows, each from its first observation on, and every other observation is dropped and counted
(`series_served`). A family whose labels are all closed, and whose budget covers the product of
their values, drops nothing (`closed_family_served`).

It does not own what `prom-client` does with an observation that is served, nor the names a family
may declare.
-/

namespace Assaybank.Observability.Series

open Assaybank.Runtime Assaybank.Library

def OTHER : JsString := js "other"

def UNKNOWN : JsString := js "unknown"

/-- What a caller supplies, after `String(raw)`. -/
abbrev MetricLabels := JsString → Option JsString

/-- What a guard is made with. -/
structure SeriesGuard where
  labelNames : List JsString
  labelValues : JsString → Option (List JsString)
  maxSeries : Nat

/-- What a guard has seen, and the observations counted in `metric_series_dropped_total`. -/
structure GuardState where
  seenSeries : List JsString
  dropped : Nat

def GuardState.start : GuardState := ⟨[], 0⟩

namespace SeriesGuard

/-- One label's value: one outside its declared set is folded. -/
def foldValue (allowed : Option (List JsString)) (raw : Option JsString) : JsString :=
  let value := raw.getD UNKNOWN
  match allowed with
  | none => value
  | some values =>
      if values.contains value then value else if value = UNKNOWN then UNKNOWN else OTHER

/-- The values of a call, in the order the labels are declared. -/
def values (guard : SeriesGuard) (labels : MetricLabels) : List JsString :=
  guard.labelNames.map fun label => foldValue (guard.labelValues label) (labels label)

/-- `key.join('\u0000')`. -/
def seriesKey (key : List JsString) : JsString := joinWith [0] key

/-- `resolve`: the labels to observe under, or nothing when the observation is dropped. -/
def resolve (guard : SeriesGuard) (state : GuardState) (labels : MetricLabels) :
    Option (List (JsString × JsString)) × GuardState :=
  if guard.labelNames = [] then (some [], state)
  else
    let key := guard.values labels
    let series := seriesKey key
    if ¬ state.seenSeries.contains series then
      if guard.maxSeries ≤ state.seenSeries.length then
        (none, { state with dropped := state.dropped + 1 })
      else
        (some (guard.labelNames.zip key),
          { state with seenSeries := state.seenSeries ++ [series] })
    else (some (guard.labelNames.zip key), state)

def reset (state : GuardState) : GuardState := { state with seenSeries := [] }

/-! ### Runs -/

/-- A call, or a reset. -/
inductive Op where
  | resolve (labels : MetricLabels)
  | reset

def step (guard : SeriesGuard) (state : GuardState) : Op → GuardState
  | .resolve labels => (guard.resolve state labels).2
  | .reset => reset state

/-- The state after a run. -/
def after (guard : SeriesGuard) (ops : List Op) : GuardState := ops.foldl guard.step .start

/-- What a run of calls answers from a state on. -/
def outcomes (guard : SeriesGuard) :
    GuardState → List MetricLabels → List (Option (List (JsString × JsString)))
  | _, [] => []
  | state, labels :: rest =>
      (guard.resolve state labels).1 :: guard.outcomes (guard.resolve state labels).2 rest

/-- No value of a call holds the separator of the keys. -/
def Clean (guard : SeriesGuard) (labels : MetricLabels) : Prop :=
  ∀ value ∈ guard.values labels, (0 : CodeUnit) ∉ value

variable {guard : SeriesGuard}

private theorem seriesKey_inj {left right : List JsString} (some_left : left ≠ [])
    (some_right : right ≠ []) (cleanLeft : ∀ value ∈ left, (0 : CodeUnit) ∉ value)
    (cleanRight : ∀ value ∈ right, (0 : CodeUnit) ∉ value)
    (same : seriesKey left = seriesKey right) : left = right := by
  have first : (seriesKey left).splitOn 0 = left :=
    List.splitOn_intercalate 0 cleanLeft some_left
  have second : (seriesKey right).splitOn 0 = right :=
    List.splitOn_intercalate 0 cleanRight some_right
  rw [← first, ← second, same]

private theorem values_ne_nil (labelled : guard.labelNames ≠ []) (labels : MetricLabels) :
    guard.values labels ≠ [] := fun empty => labelled (List.map_eq_nil_iff.mp empty)

/-- What one call answers and leaves, when the series seen are those that some items admitted. -/
private theorem resolve_tracked (labelled : guard.labelNames ≠ []) {state : GuardState}
    {items : List (List JsString)}
    (cleanItems : ∀ item ∈ items, item ≠ [] ∧ ∀ value ∈ item, (0 : CodeUnit) ∉ value)
    {labels : MetricLabels} (clean : guard.Clean labels)
    (tracked : state.seenSeries = (admitAll guard.maxSeries items).map seriesKey) :
    let admission := admitOne guard.maxSeries (admitAll guard.maxSeries items) (guard.values labels)
    (guard.resolve state labels).1 =
        (if admission.1 then some (guard.labelNames.zip (guard.values labels)) else none) ∧
      (guard.resolve state labels).2.seenSeries =
        (admitAll guard.maxSeries (items ++ [guard.values labels])).map seriesKey ∧
      (guard.resolve state labels).2.dropped = state.dropped + (if admission.1 then 0 else 1) := by
  have known : state.seenSeries.contains (seriesKey (guard.values labels)) =
      decide (guard.values labels ∈ admitAll guard.maxSeries items) := by
    rw [tracked, List.contains_eq_mem, decide_eq_decide, List.mem_map]
    constructor
    · intro found
      obtain ⟨item, inside, same⟩ := found
      have earlier : item ∈ items := by
        rw [seen_admitAll] at inside
        exact mem_distinct.mp (List.mem_of_mem_take inside)
      have equal := seriesKey_inj (cleanItems item earlier).1 (values_ne_nil labelled labels)
        (cleanItems item earlier).2 clean same
      rw [← equal]
      exact inside
    · intro inside
      exact ⟨_, inside, rfl⟩
  have size : state.seenSeries.length = (admitAll guard.maxSeries items).length := by
    rw [tracked, List.length_map]
  simp only
  unfold resolve
  rw [if_neg labelled]
  simp only [known, decide_eq_true_eq, size]
  rw [admitAll_snoc]
  unfold admitOne
  by_cases seen : guard.values labels ∈ admitAll guard.maxSeries items
  · simp only [seen, not_true_eq_false, if_false, if_true]
    exact ⟨trivial, tracked, rfl⟩
  · by_cases full : guard.maxSeries ≤ (admitAll guard.maxSeries items).length
    · simp only [seen, full, not_false_eq_true, if_true, if_false]
      exact ⟨(if_neg Bool.false_ne_true).symm, tracked, rfl⟩
    · simp only [seen, full, not_false_eq_true, if_true, if_false]
      refine ⟨trivial, ?_, rfl⟩
      rw [tracked, List.map_append]
      rfl

private theorem outcomes_tracked (labelled : guard.labelNames ≠ []) {calls : List MetricLabels}
    (clean : ∀ labels ∈ calls, guard.Clean labels) {state : GuardState}
    {items : List (List JsString)}
    (cleanItems : ∀ item ∈ items, item ≠ [] ∧ ∀ value ∈ item, (0 : CodeUnit) ∉ value)
    (tracked : state.seenSeries = (admitAll guard.maxSeries items).map seriesKey) :
    guard.outcomes state calls = calls.map (fun labels =>
        if guard.values labels ∈
            (distinct (items ++ calls.map guard.values)).take guard.maxSeries then
          some (guard.labelNames.zip (guard.values labels))
        else none) ∧
      ((calls.map Op.resolve).foldl guard.step state).dropped =
        state.dropped + (guard.outcomes state calls).countP (·.isNone) := by
  induction calls generalizing state items with
  | nil => exact ⟨rfl, rfl⟩
  | cons labels rest inductionHypothesis =>
      have cleanHere := clean labels List.mem_cons_self
      obtain ⟨answer, seen, dropped⟩ := resolve_tracked labelled cleanItems cleanHere tracked
      have cleanNext : ∀ item ∈ items ++ [guard.values labels],
          item ≠ [] ∧ ∀ value ∈ item, (0 : CodeUnit) ∉ value := by
        intro item inside
        rcases List.mem_append.mp inside with earlier | last
        · exact cleanItems item earlier
        · rw [List.mem_singleton.mp last]
          exact ⟨values_ne_nil labelled labels, cleanHere⟩
      obtain ⟨later, count⟩ := inductionHypothesis
        (fun other inside => clean other (List.mem_cons_of_mem _ inside)) cleanNext seen
      have among := admitted_iff guard.maxSeries items (rest.map guard.values)
        (guard.values labels)
      constructor
      · show (guard.resolve state labels).1 :: _ = _ :: _
        rw [later, answer]
        simp only [List.append_assoc, List.singleton_append, List.map_cons, among]
      · show ((rest.map Op.resolve).foldl guard.step (guard.resolve state labels).2).dropped =
          state.dropped + ((guard.resolve state labels).1 ::
            guard.outcomes (guard.resolve state labels).2 rest).countP _
        rw [count, dropped, answer, List.countP_cons]
        cases (admitOne guard.maxSeries (admitAll guard.maxSeries items)
          (guard.values labels)).1 with
        | true => simp
        | false =>
            simp
            omega

/-- Since the last reset, an observation is served exactly when its values are among the first of
the run, as many as the budget allows. The others are dropped, and each of them is counted. -/
theorem series_served (guard : SeriesGuard) (labelled : guard.labelNames ≠ []) (before : List Op)
    {calls : List MetricLabels} (clean : ∀ labels ∈ calls, guard.Clean labels) :
    guard.outcomes (guard.after (before ++ [.reset])) calls = calls.map (fun labels =>
        if guard.values labels ∈ (distinct (calls.map guard.values)).take guard.maxSeries then
          some (guard.labelNames.zip (guard.values labels))
        else none) ∧
      (guard.after (before ++ [.reset] ++ calls.map .resolve)).dropped =
        (guard.after (before ++ [.reset])).dropped +
          (guard.outcomes (guard.after (before ++ [.reset])) calls).countP (·.isNone) := by
  have fresh : (guard.after (before ++ [.reset])).seenSeries =
      (admitAll guard.maxSeries []).map seriesKey := by
    unfold after
    rw [List.foldl_append]
    rfl
  have whole : guard.after (before ++ [.reset] ++ calls.map .resolve) =
      (calls.map Op.resolve).foldl guard.step (guard.after (before ++ [.reset])) :=
    List.foldl_append
  rw [whole]
  exact outcomes_tracked labelled clean (fun _ inside => absurd inside List.not_mem_nil) fresh

/-- One label, and calls under values of it. -/
private def verdicts (maxSeries : Nat) : SeriesGuard :=
  ⟨[js "verdict"], fun _ => none, maxSeries⟩

private def verdict (value : String) : MetricLabels := fun _ => some (js value)

/-- Two series fit: the third value is dropped, and the first two are served again after it. -/
theorem series_served_example :
    (verdicts 2).outcomes ((verdicts 2).after ([] ++ [.reset]))
        [verdict "ok", verdict "late", verdict "lost", verdict "ok"] =
      [verdict "ok", verdict "late", verdict "lost", verdict "ok"].map (fun labels =>
        if (verdicts 2).values labels ∈ (distinct ([verdict "ok", verdict "late", verdict "lost",
            verdict "ok"].map (verdicts 2).values)).take 2 then
          some ((verdicts 2).labelNames.zip ((verdicts 2).values labels))
        else none) := by
  refine (series_served (verdicts 2) (List.cons_ne_nil _ _) [] ?_).1
  intro labels inside
  simp only [List.mem_cons, List.not_mem_nil, or_false] at inside
  have clean : ∀ value, (0 : CodeUnit) ∉ js value → (verdicts 2).Clean (verdict value) := by
    intro value absent other among
    rw [List.mem_singleton.mp among]
    exact absent
  rcases inside with rfl | rfl | rfl | rfl
  all_goals exact clean _ (by decide)

/-! ### Closed families -/

/-- What a closed label's value can be. -/
def closedValues (guard : SeriesGuard) (label : JsString) : List JsString :=
  OTHER :: UNKNOWN :: (guard.labelValues label).getD []

private theorem foldValue_closed {allowed : Option (List JsString)} (closed : allowed.isSome = true)
    (raw : Option JsString) : foldValue allowed raw ∈ OTHER :: UNKNOWN :: allowed.getD [] := by
  obtain ⟨values, rfl⟩ := Option.isSome_iff_exists.mp closed
  unfold foldValue
  simp only
  split
  · rename_i declared
    exact List.mem_cons_of_mem _ (List.mem_cons_of_mem _ (by simpa using declared))
  · split
    · exact List.mem_cons_of_mem _ List.mem_cons_self
    · exact List.mem_cons_self

private theorem length_sections {α : Type} (choices : List (List α)) :
    choices.sections.length = (choices.map List.length).prod := by
  induction choices with
  | nil => rfl
  | cons choice rest inductionHypothesis =>
      rw [List.sections, List.length_flatMap, List.map_cons, List.prod_cons]
      simp only [List.length_map, List.map_const', List.sum_replicate]
      rw [inductionHypothesis]
      exact Nat.mul_comm _ _

private theorem values_section (guard : SeriesGuard)
    (closed : ∀ label ∈ guard.labelNames, (guard.labelValues label).isSome = true)
    (labels : MetricLabels) :
    guard.values labels ∈ (guard.labelNames.map guard.closedValues).sections := by
  rw [List.mem_sections]
  unfold values
  revert closed
  induction guard.labelNames with
  | nil => exact fun _ => .nil
  | cons label rest inductionHypothesis =>
      intro closed
      exact .cons (foldValue_closed (closed label List.mem_cons_self) _)
        (inductionHypothesis fun other inside => closed other (List.mem_cons_of_mem _ inside))

/-- The series a closed family can be asked for. -/
private def closedSeries (guard : SeriesGuard) : List JsString :=
  (guard.labelNames.map guard.closedValues).sections.map seriesKey

/-- A guard that has dropped nothing, and whose series are those of its closed values. -/
private structure Within (guard : SeriesGuard) (state : GuardState) : Prop where
  once : state.seenSeries.Nodup
  known : state.seenSeries ⊆ guard.closedSeries
  kept : state.dropped = 0

private theorem resolve_closed
    (closed : ∀ label ∈ guard.labelNames, (guard.labelValues label).isSome = true)
    (budget : guard.closedSeries.length ≤ guard.maxSeries) {state : GuardState}
    (within : guard.Within state) (labels : MetricLabels) :
    (guard.resolve state labels).1 = some (guard.labelNames.zip (guard.values labels)) ∧
      guard.Within (guard.resolve state labels).2 := by
  unfold resolve
  by_cases unlabelled : guard.labelNames = []
  · rw [if_pos unlabelled, unlabelled]
    exact ⟨rfl, within⟩
  · rw [if_neg unlabelled]
    simp only
    split
    · rename_i fresh
      have apart : seriesKey (guard.values labels) ∉ state.seenSeries := by simpa using fresh
      have once : (seriesKey (guard.values labels) :: state.seenSeries).Nodup :=
        List.nodup_cons.mpr ⟨apart, within.once⟩
      have among : seriesKey (guard.values labels) ∈ guard.closedSeries :=
        List.mem_map_of_mem (values_section guard closed labels)
      have fits :=
        (List.subperm_of_subset once (List.cons_subset.mpr ⟨among, within.known⟩)).length_le
      rw [List.length_cons] at fits
      rw [if_neg (by omega)]
      refine ⟨rfl, ?_, ?_, within.kept⟩
      · exact List.nodup_append.mpr ⟨within.once, List.nodup_singleton _, by
          intro series inside other last same
          rw [same, List.mem_singleton.mp last] at inside
          exact apart inside⟩
      · exact List.append_subset.mpr ⟨within.known, List.cons_subset.mpr ⟨among, nofun⟩⟩
    · exact ⟨rfl, within⟩

/-- A family whose labels are all closed, with a budget for every combination of their values and of
the two placeholders, serves every observation of every run. -/
theorem closed_family_served (guard : SeriesGuard)
    (closed : ∀ label ∈ guard.labelNames, (guard.labelValues label).isSome = true)
    (budget : (guard.labelNames.map fun label => (guard.closedValues label).length).prod ≤
      guard.maxSeries) (ops : List Op) (labels : MetricLabels) :
    (guard.resolve (guard.after ops) labels).1 =
        some (guard.labelNames.zip (guard.values labels)) ∧
      (guard.after ops).dropped = 0 := by
  have size : guard.closedSeries.length ≤ guard.maxSeries := by
    rw [closedSeries, List.length_map, length_sections, List.map_map]
    exact budget
  have within : guard.Within (guard.after ops) := by
    induction ops using List.reverseRecOn with
    | nil => exact ⟨List.nodup_nil, nofun, rfl⟩
    | append_singleton ops op inductionHypothesis =>
        unfold after
        rw [List.foldl_append]
        cases op with
        | resolve other => exact (resolve_closed closed size inductionHypothesis other).2
        | reset => exact ⟨List.nodup_nil, nofun, inductionHypothesis.kept⟩
  exact ⟨(resolve_closed closed size within labels).1, within.kept⟩

/-- A label with two values needs room for four. -/
private def outcome : SeriesGuard :=
  ⟨[js "outcome"], fun _ => some [js "accepted", js "refused"], 4⟩

theorem closed_family_served_example :
    (outcome.resolve (outcome.after [.resolve (verdict "accepted"), .reset,
        .resolve (verdict "lost")]) (verdict "refused")).1 =
      some (outcome.labelNames.zip (outcome.values (verdict "refused"))) ∧
    (outcome.after [.resolve (verdict "accepted"), .reset, .resolve (verdict "lost")]).dropped =
      0 :=
  closed_family_served outcome (fun _ _ => rfl) (by decide) _ _

end SeriesGuard

end Assaybank.Observability.Series
