import Assaybank.Library.History
import Assaybank.Runtime.Text

/-!
Owns the connection monitor of the candidate runner (`apps/candidate/src/net/connection.ts`): its
four states, the writes it has buffered, and what each call announces.

Contract: `Moves` says what a call can do. In every run the monitor is syncing only while writes are
pending and says that all answers are saved only when none is (`history_pending`). It says so once
for an outage as long as no call of `goOnline` finds it online with writes pending
(`history_honest`); such a call makes it sync, and say so, without an outage
(`saved_without_outage`).

It does not own the banner's text, nor the listeners: the monitor counts how often they are called.
-/

namespace Assaybank.Net

open Assaybank.Runtime Assaybank.Library

inductive ConnectionState where
  | online
  | offline
  | reconnecting
  | syncing
deriving DecidableEq, Repr

inductive AnnouncementRegion where
  | polite
  | assertive
deriving DecidableEq, Repr

structure ConnectionAnnouncement where
  region : AnnouncementRegion
  message : JsString
deriving DecidableEq, Repr

structure ConnectionSnapshot where
  state : ConnectionState
  /-- Edits captured locally and not yet acknowledged by the server. -/
  pendingWrites : Nat
  announcement : Option ConnectionAnnouncement
deriving DecidableEq, Repr

def CONNECTION_MESSAGES.offline : JsString :=
  js ("You are offline. Your work is being saved on this device and will sync when you " ++
    "reconnect.")

def CONNECTION_MESSAGES.reconnected : JsString := js "Reconnected. All answers saved."

def CONNECTION_MESSAGES.reconnecting : JsString :=
  js "Reconnecting. Your work is being saved on this device."

def INITIAL : ConnectionSnapshot := ⟨.online, 0, none⟩

/-- The monitor, with the number of times its listeners have been called. -/
structure ConnectionMonitor where
  snapshot : ConnectionSnapshot
  notified : Nat
deriving DecidableEq, Repr

namespace ConnectionMonitor

def new : ConnectionMonitor := ⟨INITIAL, 0⟩

/-- `#set`. Announcements are compared by identity and each call makes its own, so two of them are
the same only where both are null. -/
def set (monitor : ConnectionMonitor) (next : ConnectionSnapshot) : ConnectionMonitor :=
  let previous := monitor.snapshot
  if next.state = previous.state ∧ next.pendingWrites = previous.pendingWrites ∧
      next.announcement = none ∧ previous.announcement = none then
    monitor
  else ⟨next, monitor.notified + 1⟩

def goOffline (monitor : ConnectionMonitor) : ConnectionMonitor :=
  if monitor.snapshot.state = .offline then monitor
  else
    monitor.set {
      state := .offline
      pendingWrites := monitor.snapshot.pendingWrites
      announcement := some ⟨.polite, CONNECTION_MESSAGES.offline⟩ }

def beginReconnect (monitor : ConnectionMonitor) : ConnectionMonitor :=
  if monitor.snapshot.state = .reconnecting ∨ monitor.snapshot.state = .syncing then monitor
  else
    monitor.set {
      state := .reconnecting
      pendingWrites := monitor.snapshot.pendingWrites
      announcement := some ⟨.polite, CONNECTION_MESSAGES.reconnecting⟩ }

def goOnline (monitor : ConnectionMonitor) : ConnectionMonitor :=
  if 0 < monitor.snapshot.pendingWrites then
    if monitor.snapshot.state = .syncing then monitor
    else
      monitor.set {
        state := .syncing
        pendingWrites := monitor.snapshot.pendingWrites
        announcement := none }
  else if monitor.snapshot.state = .online then monitor
  else
    monitor.set {
      state := .online
      pendingWrites := 0
      announcement := some ⟨.polite, CONNECTION_MESSAGES.reconnected⟩ }

def noteBufferedWrite (monitor : ConnectionMonitor) : ConnectionMonitor :=
  monitor.set {
    state := monitor.snapshot.state
    pendingWrites := monitor.snapshot.pendingWrites + 1
    announcement := none }

def noteFlushedWrite (monitor : ConnectionMonitor) : ConnectionMonitor :=
  let pending := monitor.snapshot.pendingWrites - 1
  if pending = 0 ∧ monitor.snapshot.state = .syncing then
    monitor.set {
      state := .online
      pendingWrites := 0
      announcement := some ⟨.polite, CONNECTION_MESSAGES.reconnected⟩ }
  else
    monitor.set {
      state := monitor.snapshot.state
      pendingWrites := pending
      announcement := none }

end ConnectionMonitor

inductive Call where
  | goOffline
  | beginReconnect
  | goOnline
  | noteBufferedWrite
  | noteFlushedWrite
deriving DecidableEq, Repr

def ConnectionMonitor.call (monitor : ConnectionMonitor) : Call → ConnectionMonitor
  | .goOffline => monitor.goOffline
  | .beginReconnect => monitor.beginReconnect
  | .goOnline => monitor.goOnline
  | .noteBufferedWrite => monitor.noteBufferedWrite
  | .noteFlushedWrite => monitor.noteFlushedWrite

/-- The calls made on a new monitor, with the monitor before and after each. -/
def calls (made : List Call) : List (Transition ConnectionMonitor Call) :=
  history ConnectionMonitor.call ConnectionMonitor.new made

/-! ### What a call does -/

/-- The snapshot a call that changes the monitor leaves behind. -/
inductive Moves (snapshot : ConnectionSnapshot) : Call → ConnectionSnapshot → Prop where
  | offline : snapshot.state ≠ .offline →
      Moves snapshot .goOffline
        ⟨.offline, snapshot.pendingWrites, some ⟨.polite, CONNECTION_MESSAGES.offline⟩⟩
  | reconnecting : snapshot.state ≠ .reconnecting → snapshot.state ≠ .syncing →
      Moves snapshot .beginReconnect
        ⟨.reconnecting, snapshot.pendingWrites, some ⟨.polite, CONNECTION_MESSAGES.reconnecting⟩⟩
  | syncing : 0 < snapshot.pendingWrites → snapshot.state ≠ .syncing →
      Moves snapshot .goOnline ⟨.syncing, snapshot.pendingWrites, none⟩
  | online : snapshot.pendingWrites = 0 → snapshot.state ≠ .online →
      Moves snapshot .goOnline ⟨.online, 0, some ⟨.polite, CONNECTION_MESSAGES.reconnected⟩⟩
  | buffered :
      Moves snapshot .noteBufferedWrite ⟨snapshot.state, snapshot.pendingWrites + 1, none⟩
  | drained : snapshot.pendingWrites ≤ 1 → snapshot.state = .syncing →
      Moves snapshot .noteFlushedWrite
        ⟨.online, 0, some ⟨.polite, CONNECTION_MESSAGES.reconnected⟩⟩
  | flushed : (snapshot.state = .syncing → 1 < snapshot.pendingWrites) →
      Moves snapshot .noteFlushedWrite ⟨snapshot.state, snapshot.pendingWrites - 1, none⟩

theorem set_eq_or (monitor : ConnectionMonitor) (next : ConnectionSnapshot) :
    monitor.set next = monitor ∨ monitor.set next = ⟨next, monitor.notified + 1⟩ := by
  simp only [ConnectionMonitor.set]
  split
  · exact .inl rfl
  · exact .inr rfl

/-- A call leaves the monitor as it is, or moves it and tells its listeners. -/
theorem call_cases (monitor : ConnectionMonitor) (call : Call) :
    monitor.call call = monitor ∨
      ∃ next, Moves monitor.snapshot call next ∧
        monitor.call call = ⟨next, monitor.notified + 1⟩ := by
  have told : ∀ next, Moves monitor.snapshot call next → monitor.call call = monitor.set next →
      monitor.call call = monitor ∨ ∃ next, Moves monitor.snapshot call next ∧
        monitor.call call = ⟨next, monitor.notified + 1⟩ := by
    intro next moves made
    cases set_eq_or monitor next with
    | inl same => exact .inl (made.trans same)
    | inr changed => exact .inr ⟨next, moves, made.trans changed⟩
  cases call with
  | goOffline =>
      by_cases already : monitor.snapshot.state = .offline
      · exact .inl (if_pos already)
      · exact told _ (.offline already) (if_neg already)
  | beginReconnect =>
      by_cases already : monitor.snapshot.state = .reconnecting ∨ monitor.snapshot.state = .syncing
      · exact .inl (if_pos already)
      · have apart := not_or.mp already
        exact told _ (.reconnecting apart.1 apart.2) (if_neg already)
  | goOnline =>
      by_cases pending : 0 < monitor.snapshot.pendingWrites
      · by_cases already : monitor.snapshot.state = .syncing
        · left
          show monitor.goOnline = monitor
          rw [ConnectionMonitor.goOnline, if_pos pending, if_pos already]
        · apply told _ (.syncing pending already)
          show monitor.goOnline = _
          rw [ConnectionMonitor.goOnline, if_pos pending, if_neg already]
      · by_cases already : monitor.snapshot.state = .online
        · left
          show monitor.goOnline = monitor
          rw [ConnectionMonitor.goOnline, if_neg pending, if_pos already]
        · apply told _ (.online (Nat.eq_zero_of_not_pos pending) already)
          show monitor.goOnline = _
          rw [ConnectionMonitor.goOnline, if_neg pending, if_neg already]
  | noteBufferedWrite => exact told _ .buffered rfl
  | noteFlushedWrite =>
      by_cases last : monitor.snapshot.pendingWrites - 1 = 0 ∧ monitor.snapshot.state = .syncing
      · exact told _ (.drained (Nat.sub_eq_zero_iff_le.mp last.1) last.2) (if_pos last)
      · refine told _ (.flushed ?_) (if_neg last)
        intro syncing
        by_contra few
        exact last ⟨Nat.sub_eq_zero_of_le (Nat.le_of_not_lt few), syncing⟩

/-! ### The laws of a run -/

/-- The call told the listeners that all answers are saved. -/
def Saves (made : Transition ConnectionMonitor Call) : Prop :=
  made.before.notified < made.after.notified ∧
    made.after.snapshot.announcement = some ⟨.polite, CONNECTION_MESSAGES.reconnected⟩

/-- A call of `goOffline` or `beginReconnect` that took effect. -/
def Outage (made : Transition ConnectionMonitor Call) : Prop :=
  (made.event = .goOffline ∨ made.event = .beginReconnect) ∧
    made.before.notified < made.after.notified

/-- A call of `goOnline` that finds the monitor online with writes pending. -/
def SyncsOnline (made : Transition ConnectionMonitor Call) : Prop :=
  made.event = .goOnline ∧ made.before.snapshot.state = .online ∧
    0 < made.before.snapshot.pendingWrites

instance (made : Transition ConnectionMonitor Call) : Decidable (Outage made) :=
  inferInstanceAs (Decidable (_ ∧ _))

instance (made : Transition ConnectionMonitor Call) : Decidable (SyncsOnline made) :=
  inferInstanceAs (Decidable (_ ∧ _))

/-- There is something to sync. -/
def Backed (monitor : ConnectionMonitor) : Prop :=
  monitor.snapshot.state = .syncing → 0 < monitor.snapshot.pendingWrites

/-- What a candidate may conclude from the monitor. -/
structure Honest (made : List (Transition ConnectionMonitor Call)) : Prop where
  syncing : ∀ one ∈ made, Backed one.after
  saved : ∀ one ∈ made, Saves one → one.after.snapshot.pendingWrites = 0
  /-- Each announcement follows an outage, with no announcement between the two. -/
  once : ∀ earlier one later, made = earlier ++ one :: later → Saves one →
    ∃ before outage since, earlier = before ++ outage :: since ∧ Outage outage ∧
      ∀ other ∈ since, ¬ Saves other

/-- A call that announces something new moved the monitor. -/
private theorem moves_of_told {made : List Call} {one : Transition ConnectionMonitor Call}
    (inside : one ∈ calls made) (told : one.before.notified < one.after.notified) :
    Moves one.before.snapshot one.event one.after.snapshot := by
  have step := history_step inside
  cases call_cases one.before one.event with
  | inl same =>
      rw [step, same] at told
      exact absurd told (Nat.lt_irrefl _)
  | inr moved =>
      obtain ⟨next, moves, changed⟩ := moved
      rw [step, changed]
      exact moves

theorem moves_saves {snapshot next : ConnectionSnapshot} {call : Call}
    (moves : Moves snapshot call next)
    (announced : next.announcement = some ⟨.polite, CONNECTION_MESSAGES.reconnected⟩) :
    snapshot.state ≠ .online ∧ next.state = .online ∧ next.pendingWrites = 0 := by
  have apart : CONNECTION_MESSAGES.offline ≠ CONNECTION_MESSAGES.reconnected := by decide +kernel
  have alsoApart : CONNECTION_MESSAGES.reconnecting ≠ CONNECTION_MESSAGES.reconnected := by
    decide +kernel
  cases moves with
  | offline =>
      injection announced with same
      injection same with _ message
      exact absurd message apart
  | reconnecting =>
      injection announced with same
      injection same with _ message
      exact absurd message alsoApart
  | syncing => cases announced
  | online _ away => exact ⟨away, rfl, rfl⟩
  | buffered => cases announced
  | drained _ syncing =>
      refine ⟨?_, rfl, rfl⟩
      rw [syncing]
      exact fun impossible => nomatch impossible
  | flushed => cases announced

theorem call_backed {monitor : ConnectionMonitor} (call : Call) (kept : Backed monitor) :
    Backed (monitor.call call) := by
  cases call_cases monitor call with
  | inl same =>
      rw [same]
      exact kept
  | inr moved =>
      obtain ⟨next, moves, changed⟩ := moved
      rw [changed]
      cases moves with
      | offline => exact fun impossible => nomatch impossible
      | reconnecting => exact fun impossible => nomatch impossible
      | syncing pending => exact fun _ => pending
      | online => exact fun impossible => nomatch impossible
      | buffered => exact fun _ => Nat.succ_pos _
      | drained => exact fun impossible => nomatch impossible
      | flushed several => exact fun syncing => Nat.sub_pos_of_lt (several syncing)

/-- In every run the monitor is syncing only while writes are pending, and says that all answers
are saved only when none is. -/
theorem history_pending (made : List Call) :
    (∀ one ∈ calls made, Backed one.after) ∧
    ∀ one ∈ calls made, Saves one → one.after.snapshot.pendingWrites = 0 := by
  constructor
  · have steps : ∀ one ∈ calls made, Backed one.before → Backed one.after := by
      intro one inside kept
      rw [history_step inside]
      exact call_backed one.event kept
    have start : Backed ConnectionMonitor.new := fun online => nomatch online
    intro one inside
    exact (history_invariant steps start one inside).2
  · intro one inside saves
    exact (moves_saves (moves_of_told inside saves.1) saves.2).2.2

/-- A monitor that is not online went through an outage, or stayed away from online without saying
that all is saved. -/
theorem away_source {made : List Call} {one : Transition ConnectionMonitor Call}
    (inside : one ∈ calls made) (regular : ¬ SyncsOnline one)
    (away : one.after.snapshot.state ≠ .online) :
    Outage one ∨ one.before.snapshot.state ≠ .online ∧ ¬ Saves one := by
  have step := history_step inside
  have silent : ¬ Saves one := by
    intro saves
    exact away (moves_saves (moves_of_told inside saves.1) saves.2).2.1
  cases call_cases one.before one.event with
  | inl same =>
      rw [step, same] at away
      exact .inr ⟨away, silent⟩
  | inr moved =>
      obtain ⟨next, moves, changed⟩ := moved
      have told : one.before.notified < one.after.notified := by
        rw [step, changed]
        exact Nat.lt_succ_self _
      rw [step, changed] at away
      cases called : one.event with
      | goOffline => exact .inl ⟨.inl called, told⟩
      | beginReconnect => exact .inl ⟨.inr called, told⟩
      | goOnline =>
          rw [called] at moves
          refine .inr ⟨?_, silent⟩
          cases moves with
          | syncing pending => exact fun online => regular ⟨called, online, pending⟩
          | online => exact absurd rfl away
      | noteBufferedWrite =>
          rw [called] at moves
          cases moves
          exact .inr ⟨away, silent⟩
      | noteFlushedWrite =>
          rw [called] at moves
          cases moves with
          | drained => exact absurd rfl away
          | flushed => exact .inr ⟨away, silent⟩

/-- Where no call of `goOnline` finds the monitor online with writes pending, it announces that all
answers are saved once for an outage. -/
theorem history_honest (made : List Call) (regular : ∀ one ∈ calls made, ¬ SyncsOnline one) :
    Honest (calls made) where
  syncing := (history_pending made).1
  saved := (history_pending made).2
  once := by
    intro earlier one later split saves
    have inside : one ∈ calls made := by
      rw [split]
      exact List.mem_append_right _ List.mem_cons_self
    have owing := (moves_saves (moves_of_told inside saves.1) saves.2).1
    exact settles_after_raises (fun monitor => monitor.snapshot.state ≠ .online) split
      (not_not_intro rfl) (fun other found => away_source found (regular other found)) owing

/-- An outage with one write buffered, and back. -/
theorem history_honest_example :
    Honest (calls [.goOffline, .noteBufferedWrite, .goOnline, .noteFlushedWrite]) := by
  exact history_honest _ (by decide +kernel)

/-- A write that is flushed while the transport reports that it is back announces a reconnection
that never was. -/
theorem saved_without_outage : ¬ ∀ made, Honest (calls made) := by
  intro law
  have saves : Saves ⟨⟨⟨.syncing, 1, none⟩, 2⟩, .noteFlushedWrite,
      ⟨⟨.online, 0, some ⟨.polite, CONNECTION_MESSAGES.reconnected⟩⟩, 3⟩⟩ :=
    ⟨Nat.lt_succ_self 2, rfl⟩
  have noOutage : ∀ one ∈ calls [.noteBufferedWrite, .goOnline], ¬ Outage one := by decide +kernel
  obtain ⟨before, outage, since, split, happened, _⟩ :=
    (law [.noteBufferedWrite, .goOnline, .noteFlushedWrite]).once
      (calls [.noteBufferedWrite, .goOnline]) _ [] rfl saves
  have early : outage ∈ before ++ outage :: since := List.mem_append_right _ List.mem_cons_self
  rw [← split] at early
  exact noOutage outage early happened

end Assaybank.Net
