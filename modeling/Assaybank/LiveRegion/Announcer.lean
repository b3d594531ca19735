import Assaybank.LiveRegion.AnnouncementQueue

/-!
Owns the candidate runner's announcer, with its two channels
(`apps/candidate/src/shell/announcer.ts`), and the order in which both publishers announce.

Contract: what a channel emits is an interval apart, in the order it was offered, and the newest is
emitted or waits, in every run in which no message is emitted at once while another waits for its
timer (`announcements_orderly`). A timer that runs late lets both in: the older message is then
emitted after the newer (`late_timer_announces_stale`).

An emission of the text that a channel shows already changes nothing, and is counted all the same.
-/

namespace Assaybank.LiveRegion

open Assaybank.Runtime Assaybank.Library Assaybank.Library.Coalescer

inductive AnnouncerChannel where
  | polite
  | assertive
deriving DecidableEq

def ANNOUNCEMENT_BUDGET_MS : AnnouncerChannel → Millis
  | .polite => 2000
  | .assertive => 10000

structure AnnouncerSnapshot where
  polite : JsString
  assertive : JsString
deriving DecidableEq

def AnnouncerSnapshot.get (snapshot : AnnouncerSnapshot) : AnnouncerChannel → JsString
  | .polite => snapshot.polite
  | .assertive => snapshot.assertive

/-- No emission yet is `NEGATIVE_INFINITY`. A timer is the time at which it is due. -/
structure Announcer where
  lastEmittedAt : AnnouncerChannel → Option Millis
  pending : AnnouncerChannel → Option JsString
  timers : AnnouncerChannel → Option Millis
  snapshot : AnnouncerSnapshot

/-- A call of `#emit`, and whether the listeners are told. -/
structure Announced where
  channel : AnnouncerChannel
  emission : Emission Millis JsString
  changed : Bool
deriving DecidableEq

namespace Announcer

def new : Announcer := ⟨fun _ => none, fun _ => none, fun _ => none, ⟨[], []⟩⟩

def emit (announcer : Announcer) (channel : AnnouncerChannel) (now : Millis) (message : JsString) :
    Announcer × Option Announced :=
  let stamped :=
    { announcer with lastEmittedAt := Function.update announcer.lastEmittedAt channel (some now) }
  if announcer.snapshot.get channel = message then (stamped, some ⟨channel, ⟨now, message⟩, false⟩)
  else
    ({ stamped with
        snapshot :=
          match channel with
          | .polite => { announcer.snapshot with polite := message }
          | .assertive => { announcer.snapshot with assertive := message } },
      some ⟨channel, ⟨now, message⟩, true⟩)

def announce (announcer : Announcer) (channel : AnnouncerChannel) (read acted : Millis)
    (message : JsString) : Announcer × Option Announced :=
  match announcer.lastEmittedAt channel with
  | none => announcer.emit channel acted message
  | some lastEmittedAt =>
      let elapsed := read - lastEmittedAt
      let budget := ANNOUNCEMENT_BUDGET_MS channel
      if budget ≤ elapsed then announcer.emit channel acted message
      else
        ({ announcer with
            pending := Function.update announcer.pending channel (some message)
            timers := Function.update announcer.timers channel
              (some ((announcer.timers channel).getD (acted + (budget - elapsed)))) }, none)

/-- The callback of a channel's timer. -/
def onTimer (announcer : Announcer) (channel : AnnouncerChannel) (now : Millis) :
    Announcer × Option Announced :=
  let idle :=
    { announcer with
      timers := Function.update announcer.timers channel none
      pending := Function.update announcer.pending channel none }
  match announcer.pending channel with
  | none => (idle, none)
  | some queued => idle.emit channel now queued

def dispose (announcer : Announcer) : Announcer :=
  { announcer with timers := fun _ => none, pending := fun _ => none }

/-- What may happen to an announcer next. A timer runs only while it is armed. -/
inductive Call where
  | announce (channel : AnnouncerChannel) (read acted : Millis) (message : JsString)
  | timer (channel : AnnouncerChannel) (now : Millis)
  | dispose

def step (announcer : Announcer) : Call → Announcer × Option Announced
  | .announce channel read acted message => announcer.announce channel read acted message
  | .timer channel now =>
      if (announcer.timers channel).isSome then announcer.onTimer channel now else (announcer, none)
  | .dispose => (announcer.dispose, none)

/-- A run of an announcer: the announcer it ends in, and what it emits. -/
def run (announcer : Announcer) (calls : List Call) : Announcer × List Announced :=
  runFrom step announcer calls

/-! ### One channel as a coalescing publisher -/

/-- What a channel publishes by. -/
def publisher (channel : AnnouncerChannel) (announcer : Announcer) :
    Coalescer.State Millis JsString :=
  ⟨announcer.lastEmittedAt channel, announcer.pending channel, announcer.timers channel⟩

/-- What a call is to the publisher of a channel. -/
def Call.event? (channel : AnnouncerChannel) : Call → Option (Coalescer.Event Millis JsString)
  | .announce other read acted message =>
      if other = channel then some (.offer read acted message) else none
  | .timer other now => if other = channel then some (.fire now) else none
  | .dispose => some .clear

/-- What is emitted on a channel. -/
def emissionOn (channel : AnnouncerChannel) (announced : Announced) :
    Option (Emission Millis JsString) :=
  if announced.channel = channel then some announced.emission else none

theorem emit_publisher (announcer : Announcer) (channel : AnnouncerChannel) (now : Millis)
    (message : JsString) :
    (announcer.emit channel now message).1.publisher channel =
        { announcer.publisher channel with lastEmittedAt := some now } ∧
      (announcer.emit channel now message).2.bind (emissionOn channel) = some ⟨now, message⟩ := by
  unfold emit
  simp only
  split <;> simp [publisher, emissionOn]

/-- Emitting on one channel leaves the other. -/
theorem emit_other (announcer : Announcer) {channel other : AnnouncerChannel}
    (different : other ≠ channel) (now : Millis) (message : JsString) :
    (announcer.emit other now message).1.publisher channel = announcer.publisher channel ∧
      (announcer.emit other now message).2.bind (emissionOn channel) = none := by
  unfold emit
  simp only
  split <;> simp [publisher, emissionOn, different, different.symm]

private theorem step_event {channel : AnnouncerChannel} {announcer : Announcer} {call : Call}
    {event : Coalescer.Event Millis JsString} (same : call.event? channel = some event) :
    (announcer.step call).1.publisher channel =
        ((announcer.publisher channel).step (ANNOUNCEMENT_BUDGET_MS channel) event).1 ∧
      (announcer.step call).2.bind (emissionOn channel) =
        ((announcer.publisher channel).step (ANNOUNCEMENT_BUDGET_MS channel) event).2 := by
  cases call with
  | dispose =>
      cases same
      exact ⟨rfl, rfl⟩
  | timer other now =>
      rw [Call.event?] at same
      split at same
      · rename_i here
        cases same
        subst here
        cases armed : announcer.timers other with
        | none => simp [step, State.step, publisher, armed]
        | some due =>
            cases waiting : announcer.pending other with
            | none => simp [step, onTimer, State.step, publisher, armed, waiting]
            | some queued =>
                simp only [step, onTimer, armed, waiting, Option.isSome_some, if_true]
                obtain ⟨shown, emitted⟩ := emit_publisher
                  { announcer with
                    timers := Function.update announcer.timers other none
                    pending := Function.update announcer.pending other none } other now queued
                rw [shown, emitted]
                simp [State.step, publisher, armed, waiting]
      · cases same
  | announce other read acted message =>
      rw [Call.event?] at same
      split at same
      · rename_i here
        cases same
        subst here
        obtain ⟨shown, emitted⟩ := emit_publisher announcer other acted message
        cases former : announcer.lastEmittedAt other with
        | none =>
            simp only [step, announce, former]
            rw [shown, emitted]
            simp [State.step, State.isOpen, publisher, former]
        | some last =>
            by_cases passed : ANNOUNCEMENT_BUDGET_MS other ≤ read - last
            · simp only [step, announce, former, passed, if_true]
              rw [shown, emitted]
              simp [State.step, State.isOpen, publisher, former, passed]
            · cases armed : announcer.timers other <;>
                simp [step, announce, State.step, State.isOpen, publisher, former, passed, armed]
      · cases same

/-- What happens on one channel leaves the other. -/
private theorem step_other {channel : AnnouncerChannel} {announcer : Announcer} {call : Call}
    (elsewhere : call.event? channel = none) :
    (announcer.step call).1.publisher channel = announcer.publisher channel ∧
      (announcer.step call).2.bind (emissionOn channel) = none := by
  cases call with
  | dispose => cases elsewhere
  | timer other now =>
      rw [Call.event?] at elsewhere
      split at elsewhere
      · cases elsewhere
      · rename_i different
        simp only [step, onTimer]
        split
        · split
          · simp [publisher, Ne.symm different]
          · obtain ⟨shown, emitted⟩ := emit_other
              { announcer with
                timers := Function.update announcer.timers other none
                pending := Function.update announcer.pending other none } different now _
            rw [shown, emitted]
            simp [publisher, Ne.symm different]
        · exact ⟨rfl, rfl⟩
  | announce other read acted message =>
      rw [Call.event?] at elsewhere
      split at elsewhere
      · cases elsewhere
      · rename_i different
        obtain ⟨shown, emitted⟩ := emit_other announcer different acted message
        simp only [step, announce]
        split
        · exact ⟨shown, emitted⟩
        · split
          · exact ⟨shown, emitted⟩
          · simp [publisher, Ne.symm different]

/-- A channel publishes by its publisher. -/
theorem simulation (channel : AnnouncerChannel) :
    Simulation (ANNOUNCEMENT_BUDGET_MS channel) step (publisher channel) (Call.event? channel)
      (emissionOn channel) fun _ => True where
  keeps _ := trivial
  acts _ same := step_event same
  idles _ elsewhere := step_other elsewhere

/-! ### Runs -/

def Call.readings : Call → List Millis
  | .announce _ read acted _ => [read, acted]
  | .timer _ now => [now]
  | .dispose => []

/-- The clock never goes back. -/
def ClockMonotone (calls : List Call) : Prop := (calls.flatMap Call.readings).Pairwise (· ≤ ·)

instance (calls : List Call) : Decidable (ClockMonotone calls) :=
  inferInstanceAs (Decidable (List.Pairwise _ _))

/-- The clock does not go back in a call, and a timer runs when it is due or later. -/
def Timed (announcer : Announcer) : Call → Prop
  | .announce _ read acted _ => read ≤ acted
  | .timer channel now => ∀ due ∈ announcer.timers channel, due ≤ now
  | .dispose => True

/-- No message is emitted at once on a channel while another waits there for its timer. -/
def Waits (announcer : Announcer) : Call → Prop
  | .announce channel read _ _ =>
      (announcer.timers channel).isSome →
        ∀ last ∈ announcer.lastEmittedAt channel, read - last < ANNOUNCEMENT_BUDGET_MS channel
  | _ => True

instance (announcer : Announcer) (call : Call) : Decidable (announcer.Timed call) := by
  cases call <;> unfold Timed <;> infer_instance

instance (announcer : Announcer) (call : Call) : Decidable (announcer.Waits call) := by
  cases call <;> unfold Waits <;> infer_instance

/-- What a channel emits in a run, and what then waits: messages an interval apart, in the order they
were offered, the newest emitted last or waiting under an armed timer. -/
def Announces (channel : AnnouncerChannel) (calls : List Call) : Prop :=
  Orderly (ANNOUNCEMENT_BUDGET_MS channel) (offers (calls.filterMap (Call.event? channel)))
    (latest (calls.filterMap (Call.event? channel)))
    ((new.run calls).2.filterMap (emissionOn channel)) ((new.run calls).1.publisher channel)

private theorem timed_event {channel : AnnouncerChannel} {announcer : Announcer} {call : Call}
    {event : Coalescer.Event Millis JsString} (same : call.event? channel = some event)
    (timed : announcer.Timed call) : Coalescer.Timed (announcer.publisher channel) event := by
  cases call with
  | dispose =>
      cases same
      trivial
  | timer other now =>
      rw [Call.event?] at same
      split at same
      · rename_i here
        cases same
        subst here
        exact timed
      · cases same
  | announce other read acted message =>
      rw [Call.event?] at same
      split at same
      · cases same
        exact timed
      · cases same

private theorem waits_event {channel : AnnouncerChannel} {announcer : Announcer} {call : Call}
    {event : Coalescer.Event Millis JsString} (same : call.event? channel = some event)
    (waits : announcer.Waits call) :
    Coalescer.Waits (ANNOUNCEMENT_BUDGET_MS channel) (announcer.publisher channel) event := by
  cases call with
  | dispose =>
      cases same
      trivial
  | timer other now =>
      rw [Call.event?] at same
      split at same
      · cases same
        trivial
      · cases same
  | announce other read acted message =>
      rw [Call.event?] at same
      split at same
      · rename_i here
        cases same
        subst here
        exact waits
      · cases same

theorem announces_of_waits (channel : AnnouncerChannel) {calls : List Call}
    (timed : Along step Timed new calls) (waits : Along step Waits new calls) :
    Announces channel calls := by
  apply (simulation channel).orderly trivial rfl
  · exact (simulation channel).along trivial (fun _ same meets => timed_event same meets) timed
  · exact (simulation channel).along trivial (fun _ same meets => waits_event same meets) waits

end Announcer

/-! ### Both publishers -/

/-- In every run in which no message is emitted at once while another waits for its timer, both
publishers announce in order. -/
theorem announcements_orderly (intervalMs : Millis) (channel : AnnouncerChannel)
    (pushed : List AnnouncementQueue.Call) (announced : List Announcer.Call) :
    (Along AnnouncementQueue.step AnnouncementQueue.Timed (.new intervalMs) pushed →
      Along AnnouncementQueue.step AnnouncementQueue.Waits (.new intervalMs) pushed →
        AnnouncementQueue.Announces intervalMs pushed) ∧
      (Along Announcer.step Announcer.Timed .new announced →
        Along Announcer.step Announcer.Waits .new announced →
          Announcer.Announces channel announced) :=
  ⟨AnnouncementQueue.announces_of_waits, Announcer.announces_of_waits channel⟩

/-- A message that waits is announced by a timer that runs a little late. -/
theorem announcements_orderly_example :
    AnnouncementQueue.Announces POLITE_INTERVAL_MS
        [.push 0 0 (js "Saving."), .push 1000 1000 (js "Saved."), .timer 2100] ∧
      Announcer.Announces .polite
        [.announce .polite 0 0 (js "Saving."), .announce .polite 1000 1000 (js "Saved."),
          .timer .polite 2100] := by
  have both := announcements_orderly POLITE_INTERVAL_MS .polite
    [.push 0 0 (js "Saving."), .push 1000 1000 (js "Saved."), .timer 2100]
    [.announce .polite 0 0 (js "Saving."), .announce .polite 1000 1000 (js "Saved."),
      .timer .polite 2100]
  constructor
  · exact both.1 (by decide +kernel) (by decide +kernel)
  · exact both.2 (by decide +kernel) (by decide +kernel)

/-- A newer message comes when the interval has passed and the timer of the older has not run yet:
the newer is announced at once, and then the older. -/
theorem late_timer_announces_stale :
    (¬ ∀ (intervalMs : Millis) (calls : List AnnouncementQueue.Call),
      AnnouncementQueue.ClockMonotone calls →
        Along AnnouncementQueue.step AnnouncementQueue.Timed (.new intervalMs) calls →
          AnnouncementQueue.Announces intervalMs calls) ∧
      ¬ ∀ (channel : AnnouncerChannel) (calls : List Announcer.Call),
        Announcer.ClockMonotone calls → Along Announcer.step Announcer.Timed .new calls →
          Announcer.Announces channel calls := by
  constructor
  · intro always
    have orderly := always POLITE_INTERVAL_MS
      [.push 0 0 (js "Saving."), .push 1000 1000 (js "Saved at 10:01."),
        .push 2500 2500 (js "Saved at 10:02."), .timer 2600] (by decide +kernel) (by decide +kernel)
    have order := orderly.inOrder
    revert order
    decide +kernel
  · intro always
    have orderly := always .polite
      [.announce .polite 0 0 (js "Saving."), .announce .polite 1000 1000 (js "Saved at 10:01."),
        .announce .polite 2500 2500 (js "Saved at 10:02."), .timer .polite 2600]
      (by decide +kernel) (by decide +kernel)
    have order := orderly.inOrder
    revert order
    decide +kernel

end Assaybank.LiveRegion
