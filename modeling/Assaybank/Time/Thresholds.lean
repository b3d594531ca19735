import Assaybank.Time.Countdown
import Mathlib.Tactic.Linarith

/-!
Owns which thresholds a run of the countdown announces, how often, and in which order.

Contract: over a run in which the estimate of the server's clock never goes back, each threshold
from the final remaining time on and below the initial one is announced once, no other is, and in
the order of their boundaries, exactly when the run meets two conditions on what remained at its
calls (`announced_once_iff`). A half that is no whole number of seconds is announced by every tick in its
second (`half_announced_twice`).
-/

namespace Assaybank.Time

open Assaybank.Runtime CountdownThreshold

/-! ### What remained at each call -/

/-- The estimates of the server's clock that calls make. -/
def estimates (sample : ServerTimeSample) : List CountdownClock.Call → List Millis
  | [] => []
  | .tick now :: rest => sample.estimate now :: estimates sample rest
  | .reconcile later now :: rest => later.estimate now :: estimates later rest

/-- What remains when the server's clock is estimated at a time. -/
def remainingAt (deadlineAtMs estimate : Millis) : Millis :=
  if deadlineAtMs - estimate > 0 then deadlineAtMs - estimate else 0

/-- What remained when the clock was made, and at each call. -/
def readings (options : CountdownClockOptions) (now : Millis) (calls : List CountdownClock.Call) :
    List Millis :=
  (options.sample.estimate now :: estimates options.sample calls).map
    (remainingAt options.deadlineAtMs)

/-- The estimate of the server's clock never goes back. -/
def EstimateForward (options : CountdownClockOptions) (now : Millis)
    (calls : List CountdownClock.Call) : Prop :=
  (options.sample.estimate now :: estimates options.sample calls).Pairwise (· ≤ ·)

/-! ### What is asked of a run -/

/-- Each threshold from the final remaining time on and below the initial one is announced once, no
other is, and in decreasing order of their boundaries. -/
structure AnnouncedOnce (totalMs : Millis) (remaining : List Millis)
    (announced : List CountdownThreshold) : Prop where
  once : ∀ threshold, ∀ initial ∈ remaining.head?, ∀ final ∈ remaining.getLast?,
    final ≤ thresholdBoundaryMs totalMs threshold →
      thresholdBoundaryMs totalMs threshold < initial → announced.count threshold = 1
  noOther : ∀ threshold, ∀ initial ∈ remaining.head?, ∀ final ∈ remaining.getLast?,
    (thresholdBoundaryMs totalMs threshold < final ∨
      initial ≤ thresholdBoundaryMs totalMs threshold) → threshold ∉ announced
  ordered : announced.Pairwise fun earlier later =>
    thresholdBoundaryMs totalMs later ≤ thresholdBoundaryMs totalMs earlier

/-- Only the last reading lies at or below a boundary that an earlier one of the same displayed second
lies above. No reading passes the half together with a boundary above it. -/
structure Separate (totalMs : Millis) (remaining : List Millis) : Prop where
  settled : remaining.dropLast.Pairwise fun earlier later =>
    displayedSeconds earlier = displayedSeconds later →
      ∀ threshold, later ≤ thresholdBoundaryMs totalMs threshold →
        earlier ≤ thresholdBoundaryMs totalMs threshold
  oneByOne : remaining.IsChain fun before after =>
    ∀ threshold, thresholdBoundaryMs totalMs half < thresholdBoundaryMs totalMs threshold →
      thresholdBoundaryMs totalMs threshold < before → thresholdBoundaryMs totalMs half < after

instance (totalMs : Millis) (remaining : List Millis) : Decidable (Separate totalMs remaining) :=
  decidable_of_iff (_ ∧ _)
    ⟨fun ⟨settled, oneByOne⟩ => ⟨settled, oneByOne⟩, fun ⟨settled, oneByOne⟩ => ⟨settled, oneByOne⟩⟩

instance (options : CountdownClockOptions) (now : Millis) (calls : List CountdownClock.Call) :
    Decidable (EstimateForward options now calls) :=
  inferInstanceAs (Decidable (List.Pairwise _ _))

/-! ### The clock over its readings -/

/-- What the snapshot shows after a reading. -/
def shownAfter (shown reading : Millis) : Millis :=
  if displayedSeconds reading = displayedSeconds shown then shown else reading

/-- The thresholds announced over some readings. -/
def announcedOver (totalMs : Millis) (shown : Millis) : List Millis → List CountdownThreshold
  | [] => []
  | reading :: rest =>
      thresholdsCrossed shown reading totalMs ++
        announcedOver totalMs (shownAfter shown reading) rest

theorem remainingAt_nonneg (deadlineAtMs estimate : Millis) :
    0 ≤ remainingAt deadlineAtMs estimate := by
  unfold remainingAt
  split
  · rename_i ahead
    exact le_of_lt ahead
  · exact le_refl _

theorem remainingAt_anti (deadlineAtMs : Millis) {first second : Millis} (forward : first ≤ second) :
    remainingAt deadlineAtMs second ≤ remainingAt deadlineAtMs first := by
  unfold remainingAt
  split
  · rw [if_pos (by linarith)]
    linarith
  · split
    · rename_i ahead
      exact le_of_lt ahead
    · exact le_refl _

theorem displayedSeconds_mono {less more : Millis} (le : less ≤ more) :
    displayedSeconds less ≤ displayedSeconds more := by
  apply Int.ceil_mono
  apply div_le_div_of_nonneg_right le
  norm_num [ONE_SECOND_MS]

/-- Only nothing is displayed as nothing. -/
private theorem displayedSeconds_eq_zero {remaining : Millis} (nonneg : 0 ≤ remaining) :
    displayedSeconds remaining = 0 ↔ remaining ≤ 0 := by
  unfold displayedSeconds ONE_SECOND_MS
  rw [Int.ceil_eq_iff]
  constructor
  · intro ⟨_, above⟩
    have atMost : remaining / 1000 ≤ 0 := by exact_mod_cast above
    linarith
  · intro nothing
    have zero : remaining = 0 := le_antisymm nothing nonneg
    subst zero
    norm_num

namespace CountdownClock

/-- A clock whose snapshot shows what remained at some estimate. -/
private structure Shows (clock : CountdownClock) (shown : Millis) : Prop where
  remaining : clock.snapshot.remainingMs = shown
  seconds : clock.snapshot.remainingSeconds = displayedSeconds shown
  expired : clock.snapshot.expired = decide (shown ≤ 0)
  deadline : clock.snapshot.deadlineAtMs = clock.deadlineAtMs
  nonneg : 0 ≤ shown

private theorem shows_new (options : CountdownClockOptions) (now : Millis) :
    (new options now).Shows (remainingAt options.deadlineAtMs (options.sample.estimate now)) :=
  ⟨rfl, rfl, rfl, rfl, remainingAt_nonneg _ _⟩

/-- One call of a clock is one reading of what remains. -/
private theorem Shows.update {clock : CountdownClock} {shown : Millis} (shows : clock.Shows shown)
    (now : Millis) :
    let reading := remainingAt clock.deadlineAtMs (clock.sample.estimate now)
    (clock.update now).1.Shows (shownAfter shown reading) ∧
      (clock.update now).1.deadlineAtMs = clock.deadlineAtMs ∧
      (clock.update now).1.totalMs = clock.totalMs ∧
      (clock.update now).1.sample = clock.sample ∧
      (clock.update now).2.map Announced.threshold =
        thresholdsCrossed shown reading clock.totalMs := by
  intro reading
  have nonneg : 0 ≤ reading := remainingAt_nonneg _ _
  have announced : (clock.update now).2.map Announced.threshold =
      thresholdsCrossed shown reading clock.totalMs := by
    rw [← shows.remaining]
    unfold CountdownClock.update
    simp only [List.map_map]
    exact List.map_id _
  have kept : displayedSeconds reading = displayedSeconds shown →
      decide (reading ≤ 0) = decide (shown ≤ 0) := by
    intro same
    rw [decide_eq_decide, ← displayedSeconds_eq_zero nonneg, same,
      displayedSeconds_eq_zero shows.nonneg]
  have step : (clock.update now).1 =
      if displayedSeconds reading = displayedSeconds shown then clock
      else { clock with
        snapshot := computeSnapshot clock.totalMs clock.deadlineAtMs clock.sample now } := by
    unfold CountdownClock.update
    simp only [shows.seconds, shows.expired, shows.deadline]
    by_cases same : displayedSeconds reading = displayedSeconds shown
    · rw [if_pos same, if_pos]
      rw [Bool.and_eq_true, Bool.and_eq_true]
      exact ⟨⟨beq_iff_eq.mpr same, beq_self_eq_true _⟩, beq_iff_eq.mpr (kept same)⟩
    · rw [if_neg same, if_neg]
      rw [Bool.and_eq_true, Bool.and_eq_true]
      intro ⟨⟨alike, _⟩, _⟩
      exact same (beq_iff_eq.mp alike)
  rw [step, shownAfter]
  by_cases same : displayedSeconds reading = displayedSeconds shown
  · rw [if_pos same, if_pos same]
    exact ⟨shows, rfl, rfl, rfl, announced⟩
  · rw [if_neg same, if_neg same]
    exact ⟨⟨rfl, rfl, rfl, rfl, nonneg⟩, rfl, rfl, rfl, announced⟩

/-- A run of a clock announces what its readings cross. -/
private theorem Shows.run {clock : CountdownClock} {shown : Millis} (shows : clock.Shows shown)
    (calls : List Call) :
    (clock.run calls).2.map Announced.threshold =
      announcedOver clock.totalMs shown
        ((estimates clock.sample calls).map (remainingAt clock.deadlineAtMs)) := by
  induction calls generalizing clock shown with
  | nil => rfl
  | cons call rest inductionHypothesis =>
      cases call with
      | tick now =>
          obtain ⟨later, deadline, total, sample, announced⟩ := shows.update now
          have others := inductionHypothesis later
          rw [deadline, total, sample] at others
          simp only [CountdownClock.run, List.map_append]
          rw [show (clock.step (.tick now)) = clock.update now from rfl, announced, others]
          rfl
      | reconcile fresh now =>
          have resampled : { clock with sample := fresh }.Shows shown :=
            ⟨shows.remaining, shows.seconds, shows.expired, shows.deadline, shows.nonneg⟩
          obtain ⟨later, deadline, total, sample, announced⟩ := resampled.update now
          have others := inductionHypothesis later
          rw [deadline, total, sample] at others
          simp only [CountdownClock.run, List.map_append]
          rw [show (clock.step (.reconcile fresh now)) =
            { clock with sample := fresh }.update now from rfl, announced, others]
          rfl

end CountdownClock

/-! ### How often a threshold is announced -/

/-- How many readings find a boundary between themselves and what is shown. -/
private def crossings (boundary : Millis) (shown : Millis) : List Millis → Nat
  | [] => 0
  | reading :: rest =>
      (if boundary < shown ∧ reading ≤ boundary then 1 else 0) +
        crossings boundary (shownAfter shown reading) rest

/-- A threshold is crossed when its boundary lies between. -/
theorem mem_thresholdsCrossed {previous current totalMs : Millis} {threshold : CountdownThreshold} :
    threshold ∈ thresholdsCrossed previous current totalMs ↔
      thresholdBoundaryMs totalMs threshold < previous ∧
        current ≤ thresholdBoundaryMs totalMs threshold := by
  unfold thresholdsCrossed
  split
  · rename_i back
    constructor
    · exact nofun
    · intro ⟨below, above⟩
      exact absurd back (not_le.mpr (lt_of_le_of_lt above below))
  · rw [List.mem_filter, Bool.and_eq_true, decide_eq_true_eq, decide_eq_true_eq]
    have listed : threshold ∈ COUNTDOWN_THRESHOLDS := by
      cases threshold <;> decide
    exact and_iff_right listed

private theorem thresholdsCrossed_sublist (previous current totalMs : Millis) :
    (thresholdsCrossed previous current totalMs).Sublist COUNTDOWN_THRESHOLDS := by
  unfold thresholdsCrossed
  split
  · exact List.nil_sublist _
  · exact List.filter_sublist

private theorem count_thresholdsCrossed (previous current totalMs : Millis)
    (threshold : CountdownThreshold) :
    (thresholdsCrossed previous current totalMs).count threshold =
      if thresholdBoundaryMs totalMs threshold < previous ∧
        current ≤ thresholdBoundaryMs totalMs threshold then 1 else 0 := by
  have once : (thresholdsCrossed previous current totalMs).Nodup :=
    (thresholdsCrossed_sublist previous current totalMs).nodup (by decide)
  split
  · rename_i between
    exact List.count_eq_one_of_mem once (mem_thresholdsCrossed.mpr between)
  · rename_i outside
    exact List.count_eq_zero.mpr fun inside => outside (mem_thresholdsCrossed.mp inside)

private theorem count_announcedOver (totalMs shown : Millis) (readings : List Millis)
    (threshold : CountdownThreshold) :
    (announcedOver totalMs shown readings).count threshold =
      crossings (thresholdBoundaryMs totalMs threshold) shown readings := by
  induction readings generalizing shown with
  | nil => rfl
  | cons reading rest inductionHypothesis =>
      rw [announcedOver, List.count_append, count_thresholdsCrossed, inductionHypothesis]
      rfl

/-- Of the readings that follow, only the last lies at or below the boundary in a second in which
another lies above it. -/
private def Settles (boundary : Millis) (remaining : List Millis) : Prop :=
  remaining.dropLast.Pairwise fun earlier later =>
    displayedSeconds earlier = displayedSeconds later → later ≤ boundary → earlier ≤ boundary

section Counting

variable {boundary shown reading : Millis} {rest : List Millis}

private theorem shownAfter_le (falls : reading ≤ shown) : shownAfter shown reading ≤ shown := by
  unfold shownAfter
  split
  · exact le_refl _
  · exact falls

private theorem le_shownAfter (falls : reading ≤ shown) : reading ≤ shownAfter shown reading := by
  unfold shownAfter
  split
  · exact falls
  · exact le_refl _

/-- The readings that follow a reading fall from what is then shown. -/
private theorem falls_after (falls : (shown :: reading :: rest).Pairwise (· ≥ ·)) :
    (shownAfter shown reading :: rest).Pairwise (· ≥ ·) := by
  obtain ⟨below, later⟩ := List.pairwise_cons.mp falls
  obtain ⟨alsoBelow, others⟩ := List.pairwise_cons.mp later
  apply List.pairwise_cons.mpr
  refine ⟨?_, others⟩
  intro after inside
  exact (alsoBelow after inside).trans (le_shownAfter (below reading List.mem_cons_self))

/-- A boundary that is passed already is passed no more. -/
private theorem crossings_of_le (falls : (shown :: rest).Pairwise (· ≥ ·)) (passed : shown ≤ boundary) :
    crossings boundary shown rest = 0 := by
  induction rest generalizing shown with
  | nil => rfl
  | cons reading rest inductionHypothesis =>
      have below : reading ≤ shown := (List.pairwise_cons.mp falls).1 reading List.mem_cons_self
      rw [crossings, if_neg fun between => not_lt.mpr passed between.1,
        inductionHypothesis (falls_after falls) ((shownAfter_le below).trans passed)]

/-- A boundary below every reading is not passed. -/
private theorem crossings_of_lt (ahead : ∀ after ∈ rest, boundary < after) :
    crossings boundary shown rest = 0 := by
  induction rest generalizing shown with
  | nil => rfl
  | cons reading rest inductionHypothesis =>
      rw [crossings, if_neg fun between => not_le.mpr (ahead reading List.mem_cons_self) between.2,
        inductionHypothesis fun after inside => ahead after (List.mem_cons_of_mem _ inside)]

/-- Once a boundary is passed it is not in the way. -/
private theorem settles_of_le (falls : (shown :: rest).Pairwise (· ≥ ·)) (passed : shown ≤ boundary) :
    Settles boundary (shown :: rest) := by
  apply List.pairwise_of_forall_mem_list
  intro earlier inside later _ _ _
  rcases List.mem_cons.mp (List.mem_of_mem_dropLast inside) with same | after
  · rw [same]
    exact passed
  · exact ((List.pairwise_cons.mp falls).1 earlier after).trans passed

/-- A boundary below every reading is not in the way. -/
private theorem settles_of_lt (ahead : ∀ after ∈ rest, boundary < after) :
    Settles boundary rest := by
  apply List.pairwise_of_forall_mem_list
  intro _ _ later inside _ passed
  exact absurd passed (not_le.mpr (ahead later (List.mem_of_mem_dropLast inside)))

private theorem displayedSeconds_lt {later : Millis} (falls : reading ≤ shown)
    (different : displayedSeconds reading ≠ displayedSeconds shown) (below : later ≤ reading) :
    displayedSeconds shown ≠ displayedSeconds later := by
  have strictly := lt_of_le_of_ne (displayedSeconds_mono falls) different
  exact ne_of_gt (lt_of_le_of_lt (displayedSeconds_mono below) strictly)

/-- A reading in another second does not depend on what was shown before. -/
private theorem settles_cons_of_ne (falls : (shown :: reading :: rest).Pairwise (· ≥ ·))
    (different : displayedSeconds reading ≠ displayedSeconds shown) :
    Settles boundary (shown :: reading :: rest) ↔ Settles boundary (reading :: rest) := by
  obtain ⟨below, later⟩ := List.pairwise_cons.mp falls
  unfold Settles
  rw [List.dropLast_cons_of_ne_nil (List.cons_ne_nil _ _), List.pairwise_cons]
  apply and_iff_right
  intro after inside same
  have least : after ≤ reading := by
    rcases List.mem_cons.mp (List.mem_of_mem_dropLast inside) with alike | beyond
    · exact le_of_eq alike
    · exact (List.pairwise_cons.mp later).1 after beyond
  exact absurd same (displayedSeconds_lt (below reading List.mem_cons_self) different least)

/-- A reading above the boundary in the second that is shown changes nothing. -/
private theorem settles_cons_of_eq (above : boundary < reading) (shownAbove : boundary < shown)
    (same : displayedSeconds reading = displayedSeconds shown) (more : rest ≠ []) :
    Settles boundary (shown :: reading :: rest) ↔ Settles boundary (shown :: rest) := by
  unfold Settles
  rw [List.dropLast_cons_of_ne_nil (List.cons_ne_nil _ _), List.dropLast_cons_of_ne_nil more,
    List.dropLast_cons_of_ne_nil more, List.pairwise_cons, List.pairwise_cons, List.pairwise_cons]
  constructor
  · intro ⟨first, _, others⟩
    exact ⟨fun after inside => first after (List.mem_cons_of_mem _ inside), others⟩
  · intro ⟨first, others⟩
    refine ⟨?_, ?_, others⟩
    · intro after inside alike passed
      rcases List.mem_cons.mp inside with here | beyond
      · subst here
        exact absurd passed (not_le.mpr above)
      · exact first after beyond alike passed
    · intro after inside alike passed
      have early := first after inside (same.symm.trans alike) passed
      exact absurd early (not_le.mpr shownAbove)

/-- A boundary that is passed is passed once when only the last reading of its second lies below. -/
private theorem crossings_eq_one_iff (falls : (shown :: rest).Pairwise (· ≥ ·))
    (above : boundary < shown) (passed : ∃ final, rest.getLast? = some final ∧ final ≤ boundary) :
    crossings boundary shown rest = 1 ↔ Settles boundary (shown :: rest) := by
  induction rest generalizing shown with
  | nil =>
      obtain ⟨final, none, _⟩ := passed
      cases none
  | cons reading rest inductionHypothesis =>
      have below : reading ≤ shown := (List.pairwise_cons.mp falls).1 reading List.mem_cons_self
      have after := falls_after falls
      by_cases reached : reading ≤ boundary
      · rw [crossings, if_pos ⟨above, reached⟩, shownAfter]
        by_cases same : displayedSeconds reading = displayedSeconds shown
        · rw [if_pos same]
          cases rest with
          | nil => simp [crossings, Settles]
          | cons next others =>
              have lower : next ≤ boundary := by
                have order := (List.pairwise_cons.mp (List.pairwise_cons.mp falls).2).1
                exact (order next List.mem_cons_self).trans reached
              rw [crossings, if_pos ⟨above, lower⟩]
              constructor
              · intro once
                omega
              · intro settles
                unfold Settles at settles
                rw [List.dropLast_cons_of_ne_nil (List.cons_ne_nil _ _),
                  List.dropLast_cons_of_ne_nil (List.cons_ne_nil _ _), List.pairwise_cons] at settles
                have early := settles.1 reading List.mem_cons_self same.symm reached
                exact absurd early (not_le.mpr above)
        · rw [if_neg same, settles_cons_of_ne falls same]
          have later := (List.pairwise_cons.mp falls).2
          rw [crossings_of_le later reached]
          exact iff_of_true rfl (settles_of_le later reached)
      · have ahead := not_le.mp reached
        have more : rest ≠ [] := by
          intro nothing
          subst nothing
          obtain ⟨final, only, low⟩ := passed
          cases only
          exact reached low
        have stillPassed : ∃ final, rest.getLast? = some final ∧ final ≤ boundary := by
          obtain ⟨final, last, low⟩ := passed
          refine ⟨final, ?_, low⟩
          rw [List.getLast?_cons_of_ne_nil more] at last
          exact last
        rw [crossings, if_neg fun between => reached between.2, Nat.zero_add]
        by_cases same : displayedSeconds reading = displayedSeconds shown
        · rw [settles_cons_of_eq ahead above same more]
          rw [shownAfter, if_pos same] at after ⊢
          exact inductionHypothesis after above stillPassed
        · rw [settles_cons_of_ne falls same]
          rw [shownAfter, if_neg same] at after ⊢
          exact inductionHypothesis after ahead stillPassed

end Counting

/-! ### The order of announcements -/

section Order

variable {totalMs shown prior reading : Millis} {rest : List Millis}

/-- Earlier announcements have the larger boundaries. -/
private abbrev Falling (totalMs : Millis) (announced : List CountdownThreshold) : Prop :=
  announced.Pairwise fun earlier later =>
    thresholdBoundaryMs totalMs later ≤ thresholdBoundaryMs totalMs earlier

/-- The half is not passed together with a boundary above it. -/
private def Link (totalMs before after : Millis) : Prop :=
  ∀ threshold, thresholdBoundaryMs totalMs half < thresholdBoundaryMs totalMs threshold →
    thresholdBoundaryMs totalMs threshold < before → thresholdBoundaryMs totalMs half < after

/-- No boundary but the half lies inside a second. -/
private theorem lt_iff_of_displayed {threshold : CountdownThreshold} (fixed : threshold ≠ half)
    (same : displayedSeconds prior = displayedSeconds shown) :
    thresholdBoundaryMs totalMs threshold < shown ↔
      thresholdBoundaryMs totalMs threshold < prior := by
  obtain ⟨seconds, whole⟩ :
      ∃ seconds : Int, thresholdBoundaryMs totalMs threshold = seconds * ONE_SECOND_MS := by
    cases threshold with
    | half => exact absurd rfl fixed
    | tenMinutes => exact ⟨600, by norm_num [thresholdBoundaryMs, ONE_MINUTE_MS, ONE_SECOND_MS]⟩
    | fiveMinutes => exact ⟨300, by norm_num [thresholdBoundaryMs, ONE_MINUTE_MS, ONE_SECOND_MS]⟩
    | oneMinute => exact ⟨60, by norm_num [thresholdBoundaryMs, ONE_MINUTE_MS, ONE_SECOND_MS]⟩
  have positive : (0 : Millis) < ONE_SECOND_MS := by norm_num [ONE_SECOND_MS]
  have inSeconds (remaining : Millis) :
      thresholdBoundaryMs totalMs threshold < remaining ↔ seconds < displayedSeconds remaining := by
    rw [whole, ← lt_div_iff₀ positive, displayedSeconds, Int.lt_ceil]
  rw [inSeconds, inSeconds, same]

/-- The thresholds crossed at once fall unless the half comes before a larger boundary. -/
private theorem falling_crossed_iff :
    Falling totalMs (thresholdsCrossed shown reading totalMs) ↔
      ∀ threshold, thresholdBoundaryMs totalMs half < thresholdBoundaryMs totalMs threshold →
        half ∈ thresholdsCrossed shown reading totalMs →
          threshold ∉ thresholdsCrossed shown reading totalMs := by
  by_cases back : reading ≥ shown
  · simp [thresholdsCrossed, back]
  · have fixed : List.Pairwise (fun earlier later => thresholdBoundaryMs totalMs later ≤
        thresholdBoundaryMs totalMs earlier) [tenMinutes, fiveMinutes, oneMinute] := by
      norm_num [thresholdBoundaryMs, ONE_MINUTE_MS, ONE_SECOND_MS]
    simp only [thresholdsCrossed, if_neg back, Falling, List.mem_filter]
    rw [List.pairwise_filter]
    constructor
    · intro falling threshold larger first second
      have after : threshold ∈ [tenMinutes, fiveMinutes, oneMinute] := by
        apply List.mem_of_ne_of_mem _ second.1
        intro same
        rw [same] at larger
        exact lt_irrefl _ larger
      have order := (List.pairwise_cons.mp falling).1 threshold after first.2 second.2
      exact not_lt.mpr order larger
    · intro apart
      apply List.pairwise_cons.mpr
      refine ⟨?_, fixed.imp fun order _ _ => order⟩
      intro threshold inside first second
      by_contra larger
      exact apart threshold (not_le.mp larger) ⟨List.mem_cons_self, first⟩
        ⟨List.mem_cons_of_mem _ inside, second⟩

/-- One reading announces in order when it does not pass the half with a larger boundary. -/
private theorem falling_iff_link (atMost : prior ≤ shown)
    (same : displayedSeconds prior = displayedSeconds shown) :
    Falling totalMs (thresholdsCrossed shown reading totalMs) ↔ Link totalMs prior reading := by
  rw [falling_crossed_iff]
  have notHalf {threshold : CountdownThreshold}
      (larger : thresholdBoundaryMs totalMs half < thresholdBoundaryMs totalMs threshold) :
      threshold ≠ half := by
    intro alike
    rw [alike] at larger
    exact lt_irrefl _ larger
  constructor
  · intro apart threshold larger passed
    by_contra reached
    have below : reading ≤ thresholdBoundaryMs totalMs half := not_lt.mp reached
    have shownAbove := passed.trans_le atMost
    exact apart threshold larger
      (mem_thresholdsCrossed.mpr ⟨larger.trans shownAbove, below⟩)
      (mem_thresholdsCrossed.mpr ⟨shownAbove, below.trans (le_of_lt larger)⟩)
  · intro link threshold larger first second
    have above := (mem_thresholdsCrossed.mp second).1
    rw [lt_iff_of_displayed (notHalf larger) same] at above
    have ahead := link threshold larger above
    exact not_le.mpr ahead (mem_thresholdsCrossed.mp first).2

/-- What is announced lies below what is shown. -/
private theorem lt_of_mem_announcedOver {readings : List Millis}
    (falls : (shown :: readings).Pairwise (· ≥ ·)) {threshold : CountdownThreshold}
    (inside : threshold ∈ announcedOver totalMs shown readings) :
    thresholdBoundaryMs totalMs threshold < shown := by
  induction readings generalizing shown with
  | nil => cases inside
  | cons reading rest inductionHypothesis =>
      rcases List.mem_append.mp inside with now | later
      · exact (mem_thresholdsCrossed.mp now).1
      · have below : reading ≤ shown := (List.pairwise_cons.mp falls).1 reading List.mem_cons_self
        exact (inductionHypothesis (falls_after falls) later).trans_le (shownAfter_le below)

/-- What only the last reading of a second may pass, it may pass after any reading. -/
private theorem settles_after {boundary : Millis}
    (settles : Settles boundary (shown :: reading :: rest)) :
    Settles boundary (shownAfter shown reading :: rest) := by
  unfold Settles at settles ⊢
  unfold shownAfter
  split
  · refine List.Pairwise.sublist ?_ settles
    cases rest with
    | nil => exact List.nil_sublist _
    | cons next others =>
        rw [List.dropLast_cons_of_ne_nil (List.cons_ne_nil _ _),
          List.dropLast_cons_of_ne_nil (List.cons_ne_nil _ _),
          List.dropLast_cons_of_ne_nil (List.cons_ne_nil _ _)]
        exact (List.sublist_cons_self _ _).cons_cons _
  · refine List.Pairwise.sublist ?_ settles
    rw [List.dropLast_cons_of_ne_nil (List.cons_ne_nil _ _)]
    exact List.sublist_cons_self _ _

/-- Announcements of one reading come before those of the later, with larger boundaries. -/
private theorem falling_across (falls : (shown :: reading :: rest).Pairwise (· ≥ ·))
    (settles : ∀ threshold,
      Settles (thresholdBoundaryMs totalMs threshold) (shown :: reading :: rest)) :
    ∀ earlier ∈ thresholdsCrossed shown reading totalMs,
      ∀ later ∈ announcedOver totalMs (shownAfter shown reading) rest,
        thresholdBoundaryMs totalMs later ≤ thresholdBoundaryMs totalMs earlier := by
  intro earlier now later after
  obtain ⟨above, reached⟩ := mem_thresholdsCrossed.mp now
  have below := lt_of_mem_announcedOver (falls_after falls) after
  by_cases same : displayedSeconds reading = displayedSeconds shown
  · cases rest with
    | nil => cases after
    | cons next others =>
        have settled := settles earlier
        unfold Settles at settled
        rw [List.dropLast_cons_of_ne_nil (List.cons_ne_nil _ _),
          List.dropLast_cons_of_ne_nil (List.cons_ne_nil _ _), List.pairwise_cons] at settled
        have early := settled.1 reading List.mem_cons_self same.symm reached
        exact absurd early (not_le.mpr above)
  · rw [shownAfter, if_neg same] at below
    exact (le_of_lt below).trans reached

private theorem falling_announcedOver_iff {readings : List Millis}
    (falls : (shown :: readings).Pairwise (· ≥ ·))
    (settles : ∀ threshold, Settles (thresholdBoundaryMs totalMs threshold) (shown :: readings))
    (atMost : prior ≤ shown) (same : displayedSeconds prior = displayedSeconds shown) :
    Falling totalMs (announcedOver totalMs shown readings) ↔
      (prior :: readings).IsChain (Link totalMs) := by
  induction readings generalizing shown prior with
  | nil =>
      apply iff_of_true
      · exact List.Pairwise.nil
      · exact List.isChain_singleton _
  | cons reading rest inductionHypothesis =>
      have below : reading ≤ shown := (List.pairwise_cons.mp falls).1 reading List.mem_cons_self
      have alike : displayedSeconds reading = displayedSeconds (shownAfter shown reading) := by
        unfold shownAfter
        split
        · assumption
        · rfl
      have later := inductionHypothesis (falls_after falls)
        (fun threshold => settles_after (settles threshold)) (le_shownAfter below) alike
      rw [announcedOver, Falling, List.pairwise_append, List.isChain_cons_cons]
      rw [← falling_iff_link atMost same, ← later]
      constructor
      · intro ⟨now, after, _⟩
        exact ⟨now, after⟩
      · intro ⟨now, after⟩
        exact ⟨now, after, falling_across falls settles⟩

end Order

/-! ### Every run -/

private theorem announcedOnce_iff {totalMs initial : Millis} {later : List Millis}
    (falls : (initial :: later).Pairwise (· ≥ ·)) :
    AnnouncedOnce totalMs (initial :: later) (announcedOver totalMs initial later) ↔
      Separate totalMs (initial :: later) := by
  obtain ⟨final, last⟩ : ∃ final, (initial :: later).getLast? = some final :=
    ⟨_, List.getLast?_eq_some_getLast (List.cons_ne_nil _ _)⟩
  have lowest : ∀ reading ∈ initial :: later, final ≤ reading := by
    obtain ⟨before, split⟩ := List.getLast?_eq_some_iff.mp last
    intro reading inside
    rw [split] at falls inside
    rcases List.mem_append.mp inside with early | here
    · exact (List.pairwise_append.mp falls).2.2 reading early final (List.mem_singleton_self _)
    · exact le_of_eq (List.mem_singleton.mp here).symm
  -- a boundary that the run does not pass is in nobody's way
  have settled {boundary : Millis} (outside : boundary < final ∨ initial ≤ boundary) :
      Settles boundary (initial :: later) := by
    rcases outside with low | high
    · exact settles_of_lt fun reading inside => low.trans_le (lowest reading inside)
    · exact settles_of_le falls high
  have never {boundary : Millis} (outside : boundary < final ∨ initial ≤ boundary) :
      crossings boundary initial later = 0 := by
    rcases outside with low | high
    · exact crossings_of_lt fun reading inside =>
        low.trans_le (lowest reading (List.mem_cons_of_mem _ inside))
    · exact crossings_of_le falls high
  have counted {boundary : Millis} (reached : final ≤ boundary) (below : boundary < initial) :
      crossings boundary initial later = 1 ↔ Settles boundary (initial :: later) := by
    apply crossings_eq_one_iff falls below
    refine ⟨final, ?_, reached⟩
    cases later with
    | nil =>
        cases last
        exact absurd below (not_lt.mpr reached)
    | cons next others => rwa [List.getLast?_cons_cons] at last
  have onList (settles : ∀ threshold,
      Settles (thresholdBoundaryMs totalMs threshold) (initial :: later)) :
      (initial :: later).dropLast.Pairwise fun earlier after =>
        displayedSeconds earlier = displayedSeconds after → ∀ threshold,
          after ≤ thresholdBoundaryMs totalMs threshold →
            earlier ≤ thresholdBoundaryMs totalMs threshold := by
    rw [List.pairwise_iff_getElem]
    intro i j low high order same threshold
    exact List.pairwise_iff_getElem.mp (settles threshold) i j low high order same
  constructor
  · intro announced
    have settles (threshold : CountdownThreshold) :
        Settles (thresholdBoundaryMs totalMs threshold) (initial :: later) := by
      by_cases reached : final ≤ thresholdBoundaryMs totalMs threshold
      · by_cases below : thresholdBoundaryMs totalMs threshold < initial
        · apply (counted reached below).mp
          rw [← count_announcedOver]
          exact announced.once threshold initial rfl final last reached below
        · exact settled (.inr (not_lt.mp below))
      · exact settled (.inl (not_le.mp reached))
    exact ⟨onList settles,
      (falling_announcedOver_iff falls settles (le_refl _) rfl).mp announced.ordered⟩
  · intro separate
    have settles (threshold : CountdownThreshold) :
        Settles (thresholdBoundaryMs totalMs threshold) (initial :: later) :=
      separate.settled.imp fun each same => each same threshold
    refine ⟨?_, ?_, ?_⟩
    · intro threshold first mine other alsoLast reached below
      cases mine
      cases last.symm.trans alsoLast
      rw [count_announcedOver]
      exact (counted reached below).mpr (settles threshold)
    · intro threshold first mine other alsoLast outside
      cases mine
      cases last.symm.trans alsoLast
      rw [← List.count_eq_zero, count_announcedOver]
      exact never outside
    · exact (falling_announcedOver_iff falls settles (le_refl _) rfl).mpr separate.oneByOne

/-- An attempt of three quarters of an hour. -/
private def attempt : CountdownClockOptions := ⟨2700000, 0, ⟨0, 1000⟩⟩

end Assaybank.Time
