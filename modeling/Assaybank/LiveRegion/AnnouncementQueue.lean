import Assaybank.Library.Coalescer
import Assaybank.Runtime.Text
import Mathlib.Algebra.Order.Ring.Rat

/-!
Owns the announcement queue of one live region (`packages/ui/src/live-region/announcer.ts`).

Contract: an emission carries the message that was offered, without the zero-width space that a
repeated one gets. A timer that is cleared does not run. Times are exact numbers of milliseconds.

It does not own the listeners: an emission is what each of them hears.
-/

namespace Assaybank.LiveRegion

open Assaybank.Runtime Assaybank.Library Assaybank.Library.Coalescer

abbrev Millis := ℚ

def POLITE_INTERVAL_MS : Millis := 2000

def ZERO_WIDTH_SPACE : CodeUnit := 0x200B

/-- What a listener hears: the message that was offered, and the text the region then contains. -/
structure Heard where
  emission : Emission Millis JsString
  text : JsString
deriving DecidableEq

/-- No emission yet is `NEGATIVE_INFINITY`. The timer is the time at which it is due. -/
structure AnnouncementQueue where
  intervalMs : Millis
  pending : Option JsString
  timer : Option Millis
  lastEmittedAt : Option Millis
  lastEmitted : Option JsString

namespace AnnouncementQueue

def new (intervalMs : Millis) : AnnouncementQueue := ⟨intervalMs, none, none, none, none⟩

def emit (queue : AnnouncementQueue) (now : Millis) (message : JsString) :
    AnnouncementQueue × Option Heard :=
  let text := if queue.lastEmitted = some message then message ++ [ZERO_WIDTH_SPACE] else message
  ({ queue with lastEmitted := some text, lastEmittedAt := some now }, some ⟨⟨now, message⟩, text⟩)

/-- Offers a message. The clock is read for what has elapsed, and again to emit; a timer is armed by
the clock of the second reading. -/
def push (queue : AnnouncementQueue) (read acted : Millis) (message : JsString) :
    AnnouncementQueue × Option Heard :=
  let trimmed := trim message
  if trimmed.length = 0 then (queue, none)
  else
    match queue.lastEmittedAt with
    | none => queue.emit acted trimmed
    | some lastEmittedAt =>
        let elapsed := read - lastEmittedAt
        if queue.intervalMs ≤ elapsed then queue.emit acted trimmed
        else
          ({ queue with
              pending := some trimmed
              timer := some (queue.timer.getD (acted + (queue.intervalMs - elapsed))) }, none)

/-- The callback of the timer. -/
def onTimer (queue : AnnouncementQueue) (now : Millis) : AnnouncementQueue × Option Heard :=
  match queue.pending with
  | none => ({ queue with timer := none }, none)
  | some pending => { queue with timer := none, pending := none }.emit now pending

def clear (queue : AnnouncementQueue) : AnnouncementQueue :=
  { queue with pending := none, timer := none }

/-- What may happen to a queue next. The timer runs only while it is armed. -/
inductive Call where
  | push (read acted : Millis) (message : JsString)
  | timer (now : Millis)
  | clear

def step (queue : AnnouncementQueue) : Call → AnnouncementQueue × Option Heard
  | .push read acted message => queue.push read acted message
  | .timer now => if queue.timer.isSome then queue.onTimer now else (queue, none)
  | .clear => (queue.clear, none)

/-- A run of a queue: the queue it ends in, and what is heard. -/
def run (queue : AnnouncementQueue) (calls : List Call) : AnnouncementQueue × List Heard :=
  runFrom step queue calls

/-! ### As a coalescing publisher -/

/-- What the queue publishes by. -/
def publisher (queue : AnnouncementQueue) : Coalescer.State Millis JsString :=
  ⟨queue.lastEmittedAt, queue.pending, queue.timer⟩

/-- What a call is to the publisher. A blank message is not offered. -/
def Call.event? : Call → Option (Coalescer.Event Millis JsString)
  | .push read acted message =>
      if (trim message).length = 0 then none else some (.offer read acted (trim message))
  | .timer now => some (.fire now)
  | .clear => some .clear

theorem emit_publisher (queue : AnnouncementQueue) (now : Millis) (message : JsString) :
    (queue.emit now message).1.publisher = { queue.publisher with lastEmittedAt := some now } := rfl

theorem step_intervalMs (queue : AnnouncementQueue) (call : Call) :
    (queue.step call).1.intervalMs = queue.intervalMs := by
  cases call with
  | clear => rfl
  | timer now =>
      cases armed : queue.timer <;> cases waiting : queue.pending <;>
        simp [step, onTimer, armed, waiting, emit]
  | push read acted message =>
      unfold step push
      cases queue.lastEmittedAt with
      | none =>
          simp only
          split <;> rfl
      | some last =>
          simp only
          split
          · rfl
          · split <;> rfl

private theorem step_event {queue : AnnouncementQueue} {call : Call}
    {event : Coalescer.Event Millis JsString}
    (same : call.event? = some event) :
    (queue.step call).1.publisher = (queue.publisher.step queue.intervalMs event).1 ∧
      (queue.step call).2.map Heard.emission = (queue.publisher.step queue.intervalMs event).2 := by
  cases call with
  | clear =>
      cases same
      exact ⟨rfl, rfl⟩
  | timer now =>
      cases same
      cases armed : queue.timer with
      | none => simp [step, State.step, publisher, armed]
      | some due =>
          cases waiting : queue.pending <;>
            simp [step, onTimer, State.step, publisher, armed, waiting, emit]
  | push read acted message =>
      rw [Call.event?] at same
      split at same
      · cases same
      · rename_i spoken
        cases same
        cases former : queue.lastEmittedAt with
        | none => simp [step, push, spoken, State.step, State.isOpen, publisher, former, emit]
        | some last =>
            by_cases passed : queue.intervalMs ≤ read - last
            · simp [step, push, spoken, State.step, State.isOpen, publisher, former, passed, emit]
            · cases armed : queue.timer <;>
                simp [step, push, spoken, State.step, State.isOpen, publisher, former, passed, armed]

/-- A blank message changes nothing. -/
private theorem step_blank {queue : AnnouncementQueue} {call : Call} (blank : call.event? = none) :
    queue.step call = (queue, none) := by
  cases call with
  | clear => cases blank
  | timer now => cases blank
  | push read acted message =>
      rw [Call.event?] at blank
      split at blank
      · rename_i empty
        simp only [step, push, empty, if_true]
      · cases blank

/-- A queue publishes by its publisher. -/
theorem simulation (intervalMs : Millis) :
    Simulation intervalMs step publisher Call.event? (fun heard => some heard.emission)
      fun queue => queue.intervalMs = intervalMs where
  keeps := by
    intro queue call same
    rw [step_intervalMs, same]
  acts := by
    intro queue call event same found
    subst same
    have mapped : ((queue.step call).2.bind fun heard => some heard.emission) =
        (queue.step call).2.map Heard.emission := by
      cases (queue.step call).2 <;> rfl
    rw [mapped]
    exact step_event found
  idles := by
    intro queue call _ blank
    rw [step_blank blank]
    exact ⟨rfl, rfl⟩

/-! ### Runs -/

def Call.readings : Call → List Millis
  | .push read acted _ => [read, acted]
  | .timer now => [now]
  | .clear => []

/-- The clock never goes back. -/
def ClockMonotone (calls : List Call) : Prop := (calls.flatMap Call.readings).Pairwise (· ≤ ·)

instance (calls : List Call) : Decidable (ClockMonotone calls) :=
  inferInstanceAs (Decidable (List.Pairwise _ _))

/-- The clock does not go back in a call, and a timer runs when it is due or later. -/
def Timed (queue : AnnouncementQueue) : Call → Prop
  | .push read acted _ => read ≤ acted
  | .timer now => ∀ due ∈ queue.timer, due ≤ now
  | .clear => True

/-- No message is emitted at once while another waits for its timer. -/
def Waits (queue : AnnouncementQueue) : Call → Prop
  | .push read _ message =>
      trim message ≠ [] → queue.timer.isSome →
        ∀ last ∈ queue.lastEmittedAt, read - last < queue.intervalMs
  | _ => True

instance (queue : AnnouncementQueue) (call : Call) : Decidable (queue.Timed call) := by
  cases call <;> unfold Timed <;> infer_instance

instance (queue : AnnouncementQueue) (call : Call) : Decidable (queue.Waits call) := by
  cases call <;> unfold Waits <;> infer_instance

/-- The messages that calls offer, in their order. -/
def offered (calls : List Call) : List JsString := offers (calls.filterMap Call.event?)

/-- The message offered last, unless it was cleared since. -/
def newest (calls : List Call) : Option JsString := latest (calls.filterMap Call.event?)

/-- What is heard in a run, and what then waits: messages an interval apart, in the order they were
offered, the newest heard last or waiting under an armed timer. -/
def Announces (intervalMs : Millis) (calls : List Call) : Prop :=
  Orderly intervalMs (offered calls) (newest calls)
    (((new intervalMs).run calls).2.map Heard.emission) ((new intervalMs).run calls).1.publisher

private theorem timed_event {queue : AnnouncementQueue} {call : Call}
    {event : Coalescer.Event Millis JsString} (same : call.event? = some event)
    (timed : queue.Timed call) :
    Coalescer.Timed queue.publisher event := by
  cases call with
  | clear =>
      cases same
      trivial
  | timer now =>
      cases same
      exact timed
  | push read acted message =>
      rw [Call.event?] at same
      split at same
      · cases same
      · cases same
        exact timed

private theorem waits_event {queue : AnnouncementQueue} {call : Call}
    {event : Coalescer.Event Millis JsString} (same : call.event? = some event)
    (waits : queue.Waits call) :
    Coalescer.Waits queue.intervalMs queue.publisher event := by
  cases call with
  | clear =>
      cases same
      trivial
  | timer now =>
      cases same
      trivial
  | push read acted message =>
      rw [Call.event?] at same
      split at same
      · cases same
      · rename_i spoken
        cases same
        exact waits fun blank => spoken (congrArg List.length blank)

theorem announces_of_waits {intervalMs : Millis} {calls : List Call}
    (timed : Along step Timed (new intervalMs) calls)
    (waits : Along step Waits (new intervalMs) calls) : Announces intervalMs calls := by
  have orderly := (simulation intervalMs).orderly rfl rfl
    ((simulation intervalMs).along rfl (fun _ same meets => timed_event same meets) timed)
    ((simulation intervalMs).along rfl (fun holds same meets => holds ▸ waits_event same meets) waits)
  have mapped : (runFrom step (new intervalMs) calls).2.filterMap (fun heard => some heard.emission) =
      (runFrom step (new intervalMs) calls).2.map Heard.emission :=
    congrFun List.filterMap_eq_map _
  rw [mapped] at orderly
  exact orderly

end AnnouncementQueue

end Assaybank.LiveRegion
