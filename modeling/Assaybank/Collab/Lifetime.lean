import Assaybank.Collab.Housing

/-!
Contract: over every run of a collaboration server, each session has one document, every connected
peer is in the document its session has now, and a document is destroyed by its timer alone, exactly
when the retention has elapsed since it was last emptied (`rooms_live`).
-/

namespace Assaybank.Collab

open Assaybank.Runtime Assaybank.Library Assaybank.Domain

variable {σ υ α : Type} {retentionMs : EpochMillis}

/-! ### Runs -/

/-- A peer joins on an accepted upgrade, and what it is sent moves nobody. -/
private theorem housed_accept {server : Server σ υ α} {emptied : Emptied}
    (library : DocumentLibrary σ υ) (housed : Housed retentionMs server emptied)
    (sessionId : JsString) :
    Housed retentionMs (server.accept library sessionId)
      (observe server (server.accept library sessionId) emptied) := by
  have joined := housed.join sessionId
  have greeted : SameHousing (server.join sessionId) (server.accept library sessionId) :=
    (SameHousing.send _ _ _).trans (SameHousing.sendAll _ _)
  have noted : observe server (server.accept library sessionId) emptied =
      observe (server.join sessionId) (server.accept library sessionId)
        (observe server (server.join sessionId) emptied) := by
    funext id
    rw [Housed.observe_same joined (greeted.peers id), observe, observe, greeted.peers]
    have clock : (server.accept library sessionId).now = (server.join sessionId).now := by
      show (Server.sendAll _ _).now = _
      rw [Server.now_sendAll, Server.now_send]
    rw [clock]
  rw [noted]
  exact joined.same greeted

variable [DecidableEq υ] {library : DocumentLibrary σ υ}

/-- The states a server can be in before its shutdown, each as observed. -/
inductive Reachable (library : DocumentLibrary σ υ) (retentionMs : EpochMillis) :
    Server σ υ α → Emptied → Prop
  | start (now : EpochMillis) : Reachable library retentionMs (.start now) fun _ => none
  | step {server after : Server σ υ α} {emptied : Emptied} (event : Server.Event σ υ α)
      (reached : Reachable library retentionMs server emptied)
      (stepped : server.step library retentionMs event = some after) :
      Reachable library retentionMs after (observe server after emptied)

/-- Every event keeps the peers and the rooms in step. -/
theorem housed_step {server after : Server σ υ α} {emptied : Emptied} {event : Server.Event σ υ α}
    (housed : Housed retentionMs server emptied)
    (stepped : server.step library retentionMs event = some after) :
    Housed retentionMs after (observe server after emptied) := by
  cases event with
  | upgrade sessionId =>
      cases stepped
      exact housed_accept library housed sessionId
  | message peer frame =>
      rw [Server.step, Option.ite_none_right_eq_some] at stepped
      cases stepped.2
      exact housed.same (SameHousing.handleFrame library server peer frame)
  | closing peer =>
      rw [Server.step, Option.ite_none_right_eq_some] at stepped
      cases stepped.2
      exact housed.same (SameHousing.closeSocket server peer)
  | close peer =>
      rw [Server.step, Option.ite_none_right_eq_some] at stepped
      cases stepped.2
      exact housed.closed stepped.1
  | timer id =>
      rw [Server.step, Option.ite_none_right_eq_some, Option.any_eq_true] at stepped
      obtain ⟨⟨due, pending, _⟩, collected⟩ := stepped
      cases collected
      exact housed.timer pending
  | tick ms =>
      cases stepped
      exact housed.same ⟨rfl, rfl, fun _ => rfl, fun _ => rfl, fun _ => rfl, fun _ => rfl, rfl, rfl,
        fun _ => rfl, fun _ => rfl⟩

theorem housed_reachable {server : Server σ υ α} {emptied : Emptied}
    (reached : Reachable library retentionMs server emptied) :
    Housed retentionMs server emptied := by
  induction reached with
  | start now => exact housed_start now
  | step _ _ stepped inductionHypothesis => exact housed_step inductionHypothesis stepped

/-! ### Lifetimes -/

omit [DecidableEq υ] in
/-- A timer destroys its room and no other. -/
private theorem destroyed_timer {server : Server σ υ α} {emptied : Emptied} {id other : RoomId}
    {due : EpochMillis} (housed : Housed retentionMs server emptied)
    (pending : (server.room id).reaper = some due)
    (alive : (server.room other).destroyed = false) :
    ((server.registry.collect id).heap other).destroyed = true ↔ id = other := by
  rw [(Housed.collect_eq housed pending).1]
  by_cases same : other = id
  · rw [if_pos same]
    exact ⟨fun _ => same.symm, fun _ => rfl⟩
  · rw [if_neg same, alive]
    exact ⟨nofun, fun here => absurd here.symm same⟩

/-- An event destroys a room exactly when it is the timer of that room. -/
private theorem destroyed_iff_timer {server after : Server σ υ α} {emptied : Emptied}
    {event : Server.Event σ υ α} (housed : Housed retentionMs server emptied)
    (stepped : server.step library retentionMs event = some after) {id : RoomId}
    (alive : (server.room id).destroyed = false) :
    (after.room id).destroyed = true ↔ event = .timer id := by
  have unmoved (same : (after.room id).destroyed = (server.room id).destroyed)
      (other : event ≠ .timer id) : (after.room id).destroyed = true ↔ event = .timer id := by
    rw [same, alive]
    exact ⟨nofun, fun here => absurd here other⟩
  cases event with
  | upgrade sessionId =>
      cases stepped
      refine unmoved ?_ nofun
      have greeted : SameHousing (server.join sessionId) (server.accept library sessionId) :=
        (SameHousing.send _ _ _).trans (SameHousing.sendAll _ _)
      obtain ⟨room, joined, _⟩ := housed.joins sessionId
      rw [greeted.destroyed]
      by_cases here : id = room
      · rw [here, joined.destroyed, ← here, alive]
      · rw [joined.elsewhere id here]
  | message peer frame =>
      rw [Server.step, Option.ite_none_right_eq_some] at stepped
      cases stepped.2
      exact unmoved ((SameHousing.handleFrame library server peer frame).destroyed id) nofun
  | closing peer =>
      rw [Server.step, Option.ite_none_right_eq_some] at stepped
      cases stepped.2
      exact unmoved rfl nofun
  | close peer =>
      rw [Server.step, Option.ite_none_right_eq_some] at stepped
      cases stepped.2
      exact unmoved (Housed.destroyed_closed server peer retentionMs id) nofun
  | timer other =>
      rw [Server.step, Option.ite_none_right_eq_some, Option.any_eq_true] at stepped
      obtain ⟨⟨due, pending, _⟩, collected⟩ := stepped
      cases collected
      show ((server.registry.collect other).heap id).destroyed = true ↔ _
      rw [destroyed_timer housed pending alive, Server.Event.timer.injEq]
  | tick ms =>
      cases stepped
      exact unmoved rfl nofun

/-- The timer of a room can fire exactly when the room lives and the retention has elapsed since it
was last emptied. -/
private theorem timer_enabled_iff {server : Server σ υ α} {emptied : Emptied}
    (housed : Housed retentionMs server emptied) (id : RoomId) :
    (∃ after, server.step library retentionMs (.timer id) = some after) ↔
      (server.room id).destroyed = false ∧
        ∃ time, emptied id = some time ∧ time + retentionMs ≤ server.now := by
  simp only [Server.step, Option.ite_none_right_eq_some, Option.any_eq_true, decide_eq_true_eq]
  constructor
  · rintro ⟨after, ⟨due, pending, elapsed⟩, _⟩
    obtain ⟨_, _, alive, time, noted, rfl⟩ := housed.waiting pending
    exact ⟨alive, time, noted, elapsed⟩
  · rintro ⟨alive, time, noted, elapsed⟩
    refine ⟨_, ⟨time + retentionMs, ?_, elapsed⟩, rfl⟩
    have room := housed.rooms id
    by_cases made : id < server.registry.next
    · by_cases registered : server.current (server.room id).key = some id
      · rcases (room.serving _ registered).2 with ⟨_, _, none⟩ | ⟨_, since, same, pending⟩
        · rw [none] at noted
          cases noted
        · rw [same] at noted
          cases noted
          exact pending
      · rw [(room.gone made registered).1] at alive
        cases alive
    · rw [(room.unmade (not_lt.mp made)).2.2.2] at noted
      cases noted

/-- Over every run: a session has one document, a connected peer is in the one its session has now,
a room with a peer lives, an event destroys a room exactly when it is the room's timer, and the timer
can fire exactly when the retention has elapsed since the room was last emptied. -/
theorem rooms_live (library : DocumentLibrary σ υ) (retentionMs : EpochMillis)
    {server : Server σ υ α} {emptied : Emptied}
    (reached : Reachable library retentionMs server emptied) :
    (server.registry.rooms.map Prod.fst).Nodup ∧
      (∀ id < server.registry.next, (server.room id).destroyed = false →
        server.current (server.room id).key = some id) ∧
      (∀ peer ∈ server.connections,
        server.current (server.peers peer).sessionId = some (server.peers peer).room ∧
          (server.room (server.peers peer).room).key = (server.peers peer).sessionId) ∧
      (∀ id, (server.room id).peers ≠ [] → (server.room id).destroyed = false) ∧
      (∀ event after, server.step library retentionMs event = some after →
        ∀ id, (server.room id).destroyed = false →
          ((after.room id).destroyed = true ↔ event = .timer id)) ∧
      ∀ id, (∃ after, server.step library retentionMs (.timer id) = some after) ↔
        (server.room id).destroyed = false ∧
          ∃ time, emptied id = some time ∧ time + retentionMs ≤ server.now := by
  have housed := housed_reachable reached
  refine ⟨housed.distinct, ?_, ?_, ?_, ?_, timer_enabled_iff housed⟩
  · intro id made alive
    by_contra unregistered
    rw [((housed.rooms id).gone made unregistered).1] at alive
    cases alive
  · intro peer connected
    have found := housed.held peer connected
    exact ⟨found, ((housed.rooms _).keyed _ found).2⟩
  · intro id somebody
    obtain ⟨peer, inside⟩ := List.exists_mem_of_ne_nil _ somebody
    obtain ⟨connected, rfl⟩ := (housed.attached id peer).mp inside
    exact ((housed.rooms _).serving _ (housed.held peer connected)).1
  · intro event after stepped id alive
    exact destroyed_iff_timer housed stepped alive

/-! ### A room that is left -/

/-- A run of events, as observed. -/
def Server.observed (library : DocumentLibrary σ υ) (retentionMs : EpochMillis) :
    List (Server.Event σ υ α) → Server σ υ α × Emptied → Option (Server σ υ α × Emptied)
  | [], state => some state
  | event :: rest, (server, emptied) =>
      (server.step library retentionMs event).bind fun after =>
        Server.observed library retentionMs rest (after, observe server after emptied)

theorem reachable_observed {events : List (Server.Event σ υ α)}
    {before after : Server σ υ α × Emptied}
    (reached : Reachable library retentionMs before.1 before.2)
    (ran : Server.observed library retentionMs events before = some after) :
    Reachable library retentionMs after.1 after.2 := by
  induction events generalizing before with
  | nil =>
      cases ran
      exact reached
  | cons event rest inductionHypothesis =>
      obtain ⟨middle, stepped, remaining⟩ := Option.bind_eq_some_iff.mp ran
      exact inductionHypothesis (reached.step event stepped) remaining

/-- A document library in which a state vector is the set of the updates it covers. -/
def setLibrary : DocumentLibrary (Finset Nat) Nat := ⟨id, fun known update => decide (update ∈ known)⟩

/-- A server that starts at instant zero. -/
def sampleStart : Server (Finset Nat) Nat Unit × Emptied := (.start 0, fun _ => none)

/-- A room left at instant zero, joined again within the retention, and looked at once the retention
since it was left is over. -/
def sampleEvents : List (Server.Event (Finset Nat) Nat Unit) :=
  [.upgrade (js "s"), .close 0, .tick 200000, .upgrade (js "s"), .tick 200000]

def sampleRejoined : Server (Finset Nat) Nat Unit × Emptied :=
  (Server.observed setLibrary 300000 sampleEvents sampleStart).getD sampleStart

theorem rooms_live_example :
    (sampleRejoined.1.now = 400000 ∧ sampleRejoined.1.connections = [1] ∧
      sampleRejoined.1.registry.next = 1 ∧ sampleRejoined.2 0 = none) ∧
    (sampleRejoined.1.registry.rooms.map Prod.fst).Nodup ∧
      (∀ id < sampleRejoined.1.registry.next, (sampleRejoined.1.room id).destroyed = false →
        sampleRejoined.1.current (sampleRejoined.1.room id).key = some id) ∧
      (∀ peer ∈ sampleRejoined.1.connections,
        sampleRejoined.1.current (sampleRejoined.1.peers peer).sessionId =
            some (sampleRejoined.1.peers peer).room ∧
          (sampleRejoined.1.room (sampleRejoined.1.peers peer).room).key =
            (sampleRejoined.1.peers peer).sessionId) ∧
      (∀ id, (sampleRejoined.1.room id).peers ≠ [] →
        (sampleRejoined.1.room id).destroyed = false) ∧
      (∀ event after, sampleRejoined.1.step setLibrary 300000 event = some after →
        ∀ id, (sampleRejoined.1.room id).destroyed = false →
          ((after.room id).destroyed = true ↔ event = .timer id)) ∧
      ∀ id, (∃ after, sampleRejoined.1.step setLibrary 300000 (.timer id) = some after) ↔
        (sampleRejoined.1.room id).destroyed = false ∧
          ∃ time, sampleRejoined.2 id = some time ∧ time + 300000 ≤ sampleRejoined.1.now := by
  have ran : Server.observed setLibrary 300000 sampleEvents sampleStart = some sampleRejoined := rfl
  have reached := reachable_observed (.start 0) ran
  exact ⟨by decide, rooms_live setLibrary 300000 reached⟩

end Assaybank.Collab
