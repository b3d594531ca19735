import Assaybank.Runtime.NumberText
import Mathlib.Algebra.Order.Floor.Ring
import Mathlib.Data.Fintype.Defs
import Mathlib.Data.Rat.Floor

/-!
Owns the candidate's countdown (`apps/candidate/src/time/countdown.ts`): the remaining time, the
thresholds a tick crosses and what is announced for each, and the clock with its snapshot.

Contract: times are exact numbers of milliseconds. A clock has a listener for its announcements.

It does not own a deadline that the server moves, nor the listeners of the snapshot.
-/

namespace Assaybank.Time

open Assaybank.Runtime

abbrev Millis := ℚ

def ONE_SECOND_MS : Millis := 1000

def ONE_MINUTE_MS : Millis := 60 * ONE_SECOND_MS

/-- A reading of the server's clock, and the monotonic reading at which it arrived. -/
structure ServerTimeSample where
  serverTimeMs : Millis
  receivedAtMs : Millis
deriving DecidableEq

/-- What the server's clock reads now, by the last sample. -/
def ServerTimeSample.estimate (sample : ServerTimeSample) (monotonicNowMs : Millis) : Millis :=
  sample.serverTimeMs + (monotonicNowMs - sample.receivedAtMs)

def remainingMs (deadlineAtMs : Millis) (sample : ServerTimeSample) (monotonicNowMs : Millis) :
    Millis :=
  let remaining := deadlineAtMs - sample.estimate monotonicNowMs
  if remaining > 0 then remaining else 0

/-! ### Thresholds -/

inductive CountdownThreshold where
  | half
  | tenMinutes
  | fiveMinutes
  | oneMinute
deriving DecidableEq

open CountdownThreshold

instance : Fintype CountdownThreshold :=
  ⟨{half, tenMinutes, fiveMinutes, oneMinute}, fun threshold => by cases threshold <;> decide⟩

def COUNTDOWN_THRESHOLDS : List CountdownThreshold := [half, tenMinutes, fiveMinutes, oneMinute]

inductive AnnouncementRegion where
  | polite
  | assertive
deriving DecidableEq

structure Announcement where
  region : AnnouncementRegion
  message : JsString
deriving DecidableEq

/-- The remaining time at which a threshold fires. -/
def thresholdBoundaryMs (totalMs : Millis) : CountdownThreshold → Millis
  | half => totalMs / 2
  | tenMinutes => 10 * ONE_MINUTE_MS
  | fiveMinutes => 5 * ONE_MINUTE_MS
  | oneMinute => ONE_MINUTE_MS

/-- The thresholds between two readings of the remaining time. -/
def thresholdsCrossed (previousRemainingMs currentRemainingMs totalMs : Millis) :
    List CountdownThreshold :=
  if currentRemainingMs ≥ previousRemainingMs then []
  else
    COUNTDOWN_THRESHOLDS.filter fun threshold =>
      previousRemainingMs > thresholdBoundaryMs totalMs threshold &&
        currentRemainingMs ≤ thresholdBoundaryMs totalMs threshold

/-- `1 hour` or `2 hours`. -/
def counted (n : Nat) (one many : String) : JsString :=
  natText n ++ js " " ++ js (if n = 1 then one else many)

def formatRemainingForSpeech (ms : Millis) : JsString :=
  let totalSeconds := ⌈ms / ONE_SECOND_MS⌉.toNat
  if totalSeconds = 0 then js "no time remaining"
  else
    let hours := totalSeconds / 3600
    let minutes := totalSeconds % 3600 / 60
    let seconds := totalSeconds % 60
    let parts :=
      (if hours > 0 then [counted hours "hour" "hours"] else []) ++
        (if minutes > 0 then [counted minutes "minute" "minutes"] else []) ++
          (if seconds > 0 ∧ hours = 0 then [counted seconds "second" "seconds"] else [])
    if parts.length > 0 then joinWith (js " ") parts else js "less than a minute"

def announcementForThreshold (threshold : CountdownThreshold) (currentRemainingMs : Millis) :
    Announcement :=
  match threshold with
  | half =>
      ⟨.polite, js "Half your time remains: " ++ formatRemainingForSpeech currentRemainingMs ++ js "."⟩
  | tenMinutes => ⟨.polite, js "10 minutes remaining."⟩
  | fiveMinutes => ⟨.polite, js "5 minutes remaining."⟩
  | oneMinute => ⟨.assertive, js "1 minute remaining. Your answers are saved automatically."⟩

/-! ### The clock -/

structure CountdownSnapshot where
  remainingMs : Millis
  remainingSeconds : Int
  expired : Bool
  deadlineAtMs : Millis
  totalMs : Millis
deriving DecidableEq

structure CountdownClockOptions where
  deadlineAtMs : Millis
  startedAtMs : Millis
  sample : ServerTimeSample

structure CountdownClock where
  totalMs : Millis
  deadlineAtMs : Millis
  sample : ServerTimeSample
  snapshot : CountdownSnapshot

/-- The seconds a remaining time is displayed as. -/
def displayedSeconds (remaining : Millis) : Int := ⌈remaining / ONE_SECOND_MS⌉

def computeSnapshot (totalMs deadlineAtMs : Millis) (sample : ServerTimeSample)
    (monotonicNowMs : Millis) : CountdownSnapshot :=
  let remaining := remainingMs deadlineAtMs sample monotonicNowMs
  ⟨remaining, displayedSeconds remaining, decide (remaining ≤ 0), deadlineAtMs, totalMs⟩

namespace CountdownClock

/-- The constructor, which reads the monotonic source once. -/
def new (options : CountdownClockOptions) (monotonicNowMs : Millis) : CountdownClock :=
  let total := options.deadlineAtMs - options.startedAtMs
  let totalMs := if total > 0 then total else 0
  ⟨totalMs, options.deadlineAtMs, options.sample,
    computeSnapshot totalMs options.deadlineAtMs options.sample monotonicNowMs⟩

/-- An announcement, and the threshold it is made for. -/
structure Announced where
  threshold : CountdownThreshold
  announcement : Announcement
deriving DecidableEq

/-- `#update`: announces what was crossed since the snapshot, and replaces the snapshot when what is
displayed has changed. -/
def update (clock : CountdownClock) (monotonicNowMs : Millis) : CountdownClock × List Announced :=
  let previous := clock.snapshot
  let next := computeSnapshot clock.totalMs clock.deadlineAtMs clock.sample monotonicNowMs
  let announced :=
    (thresholdsCrossed previous.remainingMs next.remainingMs clock.totalMs).map fun threshold =>
      ⟨threshold, announcementForThreshold threshold next.remainingMs⟩
  let unchanged :=
    next.remainingSeconds == previous.remainingSeconds &&
      next.deadlineAtMs == previous.deadlineAtMs && next.expired == previous.expired
  (if unchanged then clock else { clock with snapshot := next }, announced)

/-- A call of the clock, with the monotonic reading it makes. -/
inductive Call where
  | tick (monotonicNowMs : Millis)
  | reconcile (sample : ServerTimeSample) (monotonicNowMs : Millis)

def tick (clock : CountdownClock) (monotonicNowMs : Millis) : CountdownClock × List Announced :=
  clock.update monotonicNowMs

def reconcile (clock : CountdownClock) (sample : ServerTimeSample) (monotonicNowMs : Millis) :
    CountdownClock × List Announced :=
  { clock with sample := sample }.update monotonicNowMs

def step (clock : CountdownClock) : Call → CountdownClock × List Announced
  | .tick monotonicNowMs => clock.tick monotonicNowMs
  | .reconcile sample monotonicNowMs => clock.reconcile sample monotonicNowMs

/-- A run of the clock: the clock it ends in, and what it announces. -/
def run (clock : CountdownClock) : List Call → CountdownClock × List Announced
  | [] => (clock, [])
  | call :: rest =>
      let (next, announced) := clock.step call
      let (last, later) := next.run rest
      (last, announced ++ later)

end CountdownClock

end Assaybank.Time
