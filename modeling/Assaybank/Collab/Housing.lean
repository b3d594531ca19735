import Assaybank.Collab.Server

/-!
Owns the invariant that keeps the rooms of a collaboration server and its connections in step
(`Housed`), and what each callback does to it: a frame moves nobody, a close leaves one room, a timer
takes a room nobody is in, an upgrade joins the room its session has.

When a room was last emptied is observed from outside (`observe`): from who was attached before and
after each event, and not from the timers the server keeps.
-/

namespace Assaybank.Collab

open Assaybank.Runtime Assaybank.Library Assaybank.Domain

variable {σ υ α : Type} {retentionMs : EpochMillis}

/-- The room a session has now. -/
def Server.current (server : Server σ υ α) (sessionId : JsString) : Option RoomId :=
  server.registry.rooms.lookup sessionId

/-! ### When a room was last emptied -/

/-- When a room was last left by its last peer, with nobody in it since. -/
abbrev Emptied := RoomId → Option EpochMillis

/-- What an observer of the rooms notes on an event. -/
def observe (before after : Server σ υ α) (emptied : Emptied) : Emptied := fun id =>
  if 0 < (after.room id).peers.length then none
  else if 0 < (before.room id).peers.length then some after.now
  else emptied id

/-! ### The invariant -/

/-- A room in the registry: somebody is in it, or it was emptied and its collection is pending. -/
def Serving (retentionMs : EpochMillis) (room : Room υ α) (emptied : Option EpochMillis) : Prop :=
  room.destroyed = false ∧
    ((room.peers ≠ [] ∧ room.reaper = none ∧ emptied = none) ∨
      (room.peers = [] ∧ ∃ time, emptied = some time ∧ room.reaper = some (time + retentionMs)))

/-- A room that was released. -/
def Gone (room : Room υ α) : Prop :=
  room.destroyed = true ∧ room.peers = [] ∧ room.reaper = none

/-- A room that is not made yet. -/
def Unmade (room : Room υ α) (emptied : Option EpochMillis) : Prop :=
  room.destroyed = false ∧ room.peers = [] ∧ room.reaper = none ∧ emptied = none

/-- A room of the heap as the registry has it: the current one of the session it is keyed by and
serving, or released, or not made yet. -/
structure RoomHoused (retentionMs : EpochMillis) (server : Server σ υ α) (emptied : Emptied)
    (id : RoomId) : Prop where
  keyed : ∀ sessionId, server.current sessionId = some id →
    id < server.registry.next ∧ (server.room id).key = sessionId
  serving : ∀ sessionId, server.current sessionId = some id →
    Serving retentionMs (server.room id) (emptied id)
  gone : id < server.registry.next → server.current (server.room id).key ≠ some id →
    Gone (server.room id)
  unmade : server.registry.next ≤ id → Unmade (server.room id) (emptied id)

/-- The peers and the rooms of a server, in step with one another. -/
structure Housed (retentionMs : EpochMillis) (server : Server σ υ α) (emptied : Emptied) : Prop where
  distinct : (server.registry.rooms.map Prod.fst).Nodup
  rooms : ∀ id, RoomHoused retentionMs server emptied id
  attached : ∀ id peer, peer ∈ (server.room id).peers ↔
    peer ∈ server.connections ∧ (server.peers peer).room = id
  held : ∀ peer ∈ server.connections,
    server.current (server.peers peer).sessionId = some (server.peers peer).room
  allocated : ∀ peer ∈ server.connections, peer < server.nextPeer

theorem housed_start (now : EpochMillis) :
    Housed retentionMs (Server.start now : Server σ υ α) fun _ => none where
  distinct := List.nodup_nil
  rooms _ := ⟨nofun, nofun, fun made => absurd made (Nat.not_lt_zero _), fun _ => ⟨rfl, rfl, rfl, rfl⟩⟩
  attached _ _ := ⟨fun inside => absurd inside List.not_mem_nil,
    fun inside => absurd inside.1 List.not_mem_nil⟩
  held _ inside := absurd inside List.not_mem_nil
  allocated _ inside := absurd inside List.not_mem_nil

/-! ### Events that move nobody -/

/-- The same rooms with the same peers, timers and connections. -/
structure SameHousing (before after : Server σ υ α) : Prop where
  rooms : after.registry.rooms = before.registry.rooms
  next : after.registry.next = before.registry.next
  key : ∀ id, (after.room id).key = (before.room id).key
  peers : ∀ id, (after.room id).peers = (before.room id).peers
  reaper : ∀ id, (after.room id).reaper = (before.room id).reaper
  destroyed : ∀ id, (after.room id).destroyed = (before.room id).destroyed
  connections : after.connections = before.connections
  nextPeer : after.nextPeer = before.nextPeer
  room : ∀ peer, (after.peers peer).room = (before.peers peer).room
  sessionId : ∀ peer, (after.peers peer).sessionId = (before.peers peer).sessionId

namespace SameHousing

variable {first second third : Server σ υ α}

theorem refl (server : Server σ υ α) : SameHousing server server :=
  ⟨rfl, rfl, fun _ => rfl, fun _ => rfl, fun _ => rfl, fun _ => rfl, rfl, rfl, fun _ => rfl,
    fun _ => rfl⟩

theorem trans (one : SameHousing first second) (other : SameHousing second third) :
    SameHousing first third where
  rooms := other.rooms.trans one.rooms
  next := other.next.trans one.next
  key id := (other.key id).trans (one.key id)
  peers id := (other.peers id).trans (one.peers id)
  reaper id := (other.reaper id).trans (one.reaper id)
  destroyed id := (other.destroyed id).trans (one.destroyed id)
  connections := other.connections.trans one.connections
  nextPeer := other.nextPeer.trans one.nextPeer
  room peer := (other.room peer).trans (one.room peer)
  sessionId peer := (other.sessionId peer).trans (one.sessionId peer)

theorem modifyPeer (server : Server σ υ α) (peer : PeerId)
    {change : PeerConnection σ υ α → PeerConnection σ υ α}
    (room : ∀ connection, (change connection).room = connection.room)
    (sessionId : ∀ connection, (change connection).sessionId = connection.sessionId) :
    SameHousing server (server.modifyPeer peer change) := by
  refine ⟨rfl, rfl, fun _ => rfl, fun _ => rfl, fun _ => rfl, fun _ => rfl, rfl, rfl, ?_, ?_⟩
  · intro other
    rw [Server.peers_modifyPeer]
    by_cases same : other = peer
    · rw [if_pos same, room, same]
    · rw [if_neg same]
  · intro other
    rw [Server.peers_modifyPeer]
    by_cases same : other = peer
    · rw [if_pos same, sessionId, same]
    · rw [if_neg same]

theorem modifyRoom (server : Server σ υ α) (id : RoomId) {change : Room υ α → Room υ α}
    (key : ∀ room, (change room).key = room.key) (peers : ∀ room, (change room).peers = room.peers)
    (reaper : ∀ room, (change room).reaper = room.reaper)
    (destroyed : ∀ room, (change room).destroyed = room.destroyed) :
    SameHousing server (server.modifyRoom id change) := by
  refine ⟨rfl, rfl, ?_, ?_, ?_, ?_, rfl, rfl, fun _ => rfl, fun _ => rfl⟩
  all_goals
    intro other
    rw [Server.room_modifyRoom]
    by_cases same : other = id
    · simp only [same, ↓reduceIte, key, peers, reaper, destroyed]
    · rw [if_neg same]

theorem send (server : Server σ υ α) (peer : PeerId) (frame : Outbound σ υ α) :
    SameHousing server (server.send peer frame) := by
  unfold Server.send
  split
  · exact modifyPeer server peer (fun _ => rfl) (fun _ => rfl)
  · exact refl server

theorem sendAll (server : Server σ υ α) (frames : List (PeerId × Outbound σ υ α)) :
    SameHousing server (server.sendAll frames) := by
  induction frames generalizing server with
  | nil => exact refl server
  | cons frame rest inductionHypothesis =>
      exact (send server frame.1 frame.2).trans (inductionHypothesis _)

theorem closeSocket (server : Server σ υ α) (peer : PeerId) :
    SameHousing server (server.closeSocket peer) :=
  modifyPeer server peer (fun _ => rfl) (fun _ => rfl)

variable [DecidableEq υ]

theorem applyUpdate (server : Server σ υ α) (peer : PeerId) (update : Finset υ) :
    SameHousing server (server.applyUpdate peer update) := by
  unfold Server.applyUpdate
  apply trans _ (sendAll _ _)
  apply trans
  case other => exact modifyPeer _ peer (fun _ => rfl) (fun _ => rfl)
  exact modifyRoom server _ (fun _ => rfl) (fun _ => rfl) (fun _ => rfl) (fun _ => rfl)

/-- No frame moves a peer or a timer. -/
theorem handleFrame (library : DocumentLibrary σ υ) (server : Server σ υ α) (peer : PeerId)
    (frame : Inbound σ υ α) : SameHousing server (server.handleFrame library peer frame) := by
  cases frame with
  | notBinary => exact closeSocket server peer
  | rejected => exact closeSocket server peer
  | syncStep1 stateVector =>
      rw [Server.handleFrame]
      apply (send server peer _).trans
      exact modifyPeer _ peer (fun _ => rfl) (fun _ => rfl)
  | syncStep2 update => exact applyUpdate server peer update
  | syncUpdate update => exact applyUpdate server peer update
  | awareness payload =>
      apply trans _ (sendAll _ _)
      exact modifyRoom server _ (fun _ => rfl) (fun _ => rfl) (fun _ => rfl) (fun _ => rfl)
  | queryAwareness => exact sendAll server _
  | ignored => exact refl server

end SameHousing

namespace Housed

variable {server after : Server σ υ α} {emptied : Emptied}

/-- Where somebody is, nothing was emptied. -/
private theorem emptied_of_peers (housed : Housed retentionMs server emptied) {id : RoomId}
    (somebody : (server.room id).peers ≠ []) : emptied id = none := by
  have room := housed.rooms id
  by_cases made : id < server.registry.next
  · by_cases registered : server.current (server.room id).key = some id
    · rcases (room.serving _ registered).2 with ⟨_, _, none⟩ | ⟨nobody, _⟩
      · exact none
      · exact absurd nobody somebody
    · exact absurd (room.gone made registered).2.1 somebody
  · exact absurd (room.unmade (not_lt.mp made)).2.1 somebody

/-- Nothing is noted on an event that leaves the peers of a room as they were. -/
theorem observe_same (housed : Housed retentionMs server emptied) {id : RoomId}
    (peers : (after.room id).peers = (server.room id).peers) :
    observe server after emptied id = emptied id := by
  unfold observe
  rw [peers]
  by_cases somebody : 0 < (server.room id).peers.length
  · rw [if_pos somebody, emptied_of_peers housed (List.ne_nil_of_length_pos somebody)]
  · rw [if_neg somebody, if_neg somebody]

/-- A room an event leaves as it was is housed as before. -/
private theorem elsewhere (housed : Housed retentionMs server emptied) {id : RoomId}
    (key : (after.room id).key = (server.room id).key)
    (peers : (after.room id).peers = (server.room id).peers)
    (reaper : (after.room id).reaper = (server.room id).reaper)
    (destroyed : (after.room id).destroyed = (server.room id).destroyed)
    (current : ∀ sessionId, after.current sessionId = some id ↔ server.current sessionId = some id)
    (made : id < after.registry.next ↔ id < server.registry.next) :
    RoomHoused retentionMs after (observe server after emptied) id := by
  have room := housed.rooms id
  have noted := observe_same housed peers
  refine ⟨?_, ?_, ?_, ?_⟩
  · intro sessionId found
    rw [made, key]
    exact room.keyed sessionId ((current sessionId).mp found)
  · intro sessionId found
    rw [noted, Serving, destroyed, peers, reaper]
    exact room.serving sessionId ((current sessionId).mp found)
  · intro below unregistered
    rw [Gone, destroyed, peers, reaper]
    rw [key, ne_eq, current] at unregistered
    exact room.gone (made.mp below) unregistered
  · intro above
    rw [noted, Unmade, destroyed, peers, reaper]
    exact room.unmade (not_lt.mp fun below => absurd (made.mpr below) (not_lt.mpr above))

/-- An event that moves nobody keeps the invariant. -/
theorem same (housed : Housed retentionMs server emptied) (unmoved : SameHousing server after) :
    Housed retentionMs after (observe server after emptied) := by
  have current (sessionId : JsString) : after.current sessionId = server.current sessionId := by
    unfold Server.current
    rw [unmoved.rooms]
  refine ⟨?_, ?_, ?_, ?_, ?_⟩
  · rw [unmoved.rooms]
    exact housed.distinct
  · intro id
    exact elsewhere housed (unmoved.key id) (unmoved.peers id) (unmoved.reaper id)
      (unmoved.destroyed id) (fun sessionId => by rw [current]) (by rw [unmoved.next])
  · intro id peer
    rw [unmoved.peers, unmoved.connections, unmoved.room]
    exact housed.attached id peer
  · intro peer inside
    rw [unmoved.connections] at inside
    rw [current, unmoved.sessionId, unmoved.room]
    exact housed.held peer inside
  · intro peer inside
    rw [unmoved.connections] at inside
    rw [unmoved.nextPeer]
    exact housed.allocated peer inside

/-- Two rooms are not the current room of one session. -/
private theorem current_inj (housed : Housed retentionMs server emptied) {first second : JsString}
    {id : RoomId} (one : server.current first = some id) (other : server.current second = some id) :
    first = second :=
  ((housed.rooms id).keyed first one).2.symm.trans ((housed.rooms id).keyed second other).2

/-- The room of a connected peer is the current one of its session, alive, with no timer. -/
private theorem room_of_connected (housed : Housed retentionMs server emptied) {peer : PeerId}
    (connected : peer ∈ server.connections) :
    peer ∈ (server.room (server.peers peer).room).peers ∧
      (server.peers peer).room < server.registry.next ∧
      (server.room (server.peers peer).room).key = (server.peers peer).sessionId ∧
      (server.room (server.peers peer).room).destroyed = false ∧
      (server.room (server.peers peer).room).reaper = none := by
  have inside := (housed.attached _ peer).mpr ⟨connected, rfl⟩
  have found := housed.held peer connected
  have keyed := (housed.rooms _).keyed _ found
  rcases (housed.rooms _).serving _ found with ⟨alive, ⟨_, pending, _⟩ | ⟨nobody, _⟩⟩
  · exact ⟨inside, keyed.1, keyed.2, alive, pending⟩
  · exact absurd nobody (List.ne_nil_of_mem inside)

/-! ### A peer closes -/

/-- What is left of the room of a peer that closes. -/
private def leftRoom (server : Server σ υ α) (peer : PeerId) (retentionMs : EpochMillis) : Room υ α :=
  let left := (server.room (server.peers peer).room).dropPeer peer
  if 0 < left.peers.length then left else left.scheduleReaper (server.now + retentionMs)

private theorem room_closed (server : Server σ υ α) (peer : PeerId) (retentionMs : EpochMillis)
    (id : RoomId) : (server.closed peer retentionMs).room id =
      if id = (server.peers peer).room then leftRoom server peer retentionMs
      else server.room id := by
  show (server.registry.detach _ peer server.now retentionMs).heap id = _
  rw [RoomRegistry.detach, RoomRegistry.heap_modify]
  rfl

private theorem leftRoom_eq (server : Server σ υ α) (peer : PeerId) (retentionMs : EpochMillis) :
    (leftRoom server peer retentionMs).key = (server.room (server.peers peer).room).key ∧
      (leftRoom server peer retentionMs).destroyed =
        (server.room (server.peers peer).room).destroyed ∧
      (leftRoom server peer retentionMs).peers =
        (server.room (server.peers peer).room).peers.filter fun other => other ≠ peer := by
  unfold leftRoom
  simp only
  split <;> exact ⟨rfl, rfl, rfl⟩

/-- No room is destroyed by a close. -/
theorem destroyed_closed (server : Server σ υ α) (peer : PeerId) (retentionMs : EpochMillis)
    (id : RoomId) :
    ((server.closed peer retentionMs).room id).destroyed = (server.room id).destroyed := by
  rw [room_closed]
  by_cases here : id = (server.peers peer).room
  · rw [if_pos here, (leftRoom_eq server peer retentionMs).2.1, here]
  · rw [if_neg here]

/-- Nor does a close change a document. -/
theorem doc_closed (server : Server σ υ α) (peer : PeerId) (retentionMs : EpochMillis) (id : RoomId) :
    ((server.closed peer retentionMs).room id).doc = (server.room id).doc := by
  rw [room_closed]
  by_cases here : id = (server.peers peer).room
  · rw [if_pos here, here, leftRoom]
    split <;> rfl
  · rw [if_neg here]

/-- The room a peer leaves still serves: somebody is left, or it waits from now on. -/
private theorem serving_closed (housed : Housed retentionMs server emptied) {peer : PeerId}
    (connected : peer ∈ server.connections) :
    Serving retentionMs (leftRoom server peer retentionMs)
      (observe server (server.closed peer retentionMs) emptied (server.peers peer).room) := by
  obtain ⟨inside, _, _, alive, pending⟩ := room_of_connected housed connected
  have somebody := List.length_pos_of_mem inside
  have room : (server.closed peer retentionMs).room (server.peers peer).room =
      leftRoom server peer retentionMs := by
    rw [room_closed, if_pos rfl]
  refine ⟨(leftRoom_eq server peer retentionMs).2.1.trans alive, ?_⟩
  rw [observe, room]
  by_cases others : 0 < (leftRoom server peer retentionMs).peers.length
  · refine .inl ⟨List.ne_nil_of_length_pos others, ?_, if_pos others⟩
    rw [leftRoom] at others ⊢
    split at others
    · rename_i left
      rw [if_pos left]
      exact pending
    · rename_i left
      exact absurd others left
  · have nobody := List.length_eq_zero_iff.mp (Nat.eq_zero_of_not_pos others)
    refine .inr ⟨nobody, server.now, ?_, ?_⟩
    · rw [if_neg others, if_pos somebody]
      rfl
    · rw [leftRoom] at others ⊢
      split at others
      · rename_i left
        exact absurd left others
      · rename_i left
        rw [if_neg left]
        rfl

/-- A peer that closes leaves its room alone. -/
theorem closed (housed : Housed retentionMs server emptied) {peer : PeerId}
    (connected : peer ∈ server.connections) :
    Housed retentionMs (server.closed peer retentionMs)
      (observe server (server.closed peer retentionMs) emptied) := by
  obtain ⟨_, made, key, _, _⟩ := room_of_connected housed connected
  have leftKey := (leftRoom_eq server peer retentionMs).1
  have record := SameHousing.closeSocket server peer
  have remaining (other : PeerId) : other ∈ (server.closed peer retentionMs).connections ↔
      other ∈ server.connections ∧ other ≠ peer := by
    show other ∈ server.connections.filter _ ↔ _
    rw [List.mem_filter, decide_eq_true_eq]
  refine ⟨housed.distinct, ?_, ?_, ?_, ?_⟩
  · intro id
    by_cases here : id = (server.peers peer).room
    · subst here
      have room := room_closed server peer retentionMs (server.peers peer).room
      rw [if_pos rfl] at room
      refine ⟨?_, ?_, ?_, ?_⟩
      · intro sessionId found
        rw [room, leftKey]
        exact (housed.rooms _).keyed sessionId found
      · intro sessionId _
        rw [room]
        exact serving_closed housed connected
      · intro _ unregistered
        rw [room, leftKey, key] at unregistered
        exact absurd (housed.held peer connected) unregistered
      · intro above
        exact absurd made (not_lt.mpr above)
    · have room := room_closed server peer retentionMs id
      rw [if_neg here] at room
      exact elsewhere housed (by rw [room]) (by rw [room]) (by rw [room]) (by rw [room])
        (fun _ => Iff.rfl) Iff.rfl
  · intro id other
    have recorded : ((server.closed peer retentionMs).peers other).room =
        (server.peers other).room := record.room other
    rw [remaining, recorded, room_closed]
    by_cases here : id = (server.peers peer).room
    · rw [if_pos here, (leftRoom_eq server peer retentionMs).2.2, List.mem_filter,
        decide_eq_true_eq, housed.attached, here]
      exact and_right_comm
    · rw [if_neg here, housed.attached]
      constructor
      · rintro ⟨inside, rfl⟩
        refine ⟨⟨inside, ?_⟩, rfl⟩
        rintro rfl
        exact here rfl
      · rintro ⟨⟨inside, _⟩, room⟩
        exact ⟨inside, room⟩
  · intro other inside
    have room : ((server.closed peer retentionMs).peers other).room =
        (server.peers other).room := record.room other
    have session : ((server.closed peer retentionMs).peers other).sessionId =
        (server.peers other).sessionId := record.sessionId other
    rw [room, session]
    exact housed.held other ((remaining other).mp inside).1
  · intro other inside
    exact housed.allocated other ((remaining other).mp inside).1

/-! ### A timer fires -/

/-- A room with a timer is the current one of its session, and waits since it was emptied. -/
theorem waiting (housed : Housed retentionMs server emptied) {id : RoomId} {due : EpochMillis}
    (pending : (server.room id).reaper = some due) :
    server.current (server.room id).key = some id ∧ (server.room id).peers = [] ∧
      (server.room id).destroyed = false ∧
      ∃ time, emptied id = some time ∧ due = time + retentionMs := by
  have room := housed.rooms id
  by_cases made : id < server.registry.next
  · by_cases registered : server.current (server.room id).key = some id
    · rcases room.serving _ registered with ⟨alive, ⟨_, none, _⟩ | ⟨nobody, time, noted, some⟩⟩
      · rw [none] at pending
        cases pending
      · rw [some] at pending
        exact ⟨registered, nobody, alive, time, noted, (Option.some.inj pending).symm⟩
    · rw [(room.gone made registered).2.2] at pending
      cases pending
  · rw [(room.unmade (not_lt.mp made)).2.2.1] at pending
    cases pending

/-- A collection takes the room out of the registry and destroys it. -/
theorem collect_eq (housed : Housed retentionMs server emptied) {id : RoomId}
    {due : EpochMillis} (pending : (server.room id).reaper = some due) :
    (∀ other, (server.registry.collect id).heap other =
        if other = id then (server.room id).cancelReaper.destroy else server.room other) ∧
      (server.registry.collect id).next = server.registry.next ∧
      (server.registry.collect id).rooms =
        removeEntry server.registry.rooms (server.room id).key := by
  obtain ⟨registered, nobody, _, _⟩ := waiting housed pending
  have fired (other : RoomId) : (server.registry.modify id Room.cancelReaper).heap other =
      if other = id then (server.room id).cancelReaper else server.room other :=
    RoomRegistry.heap_modify ..
  have here : (server.registry.modify id Room.cancelReaper).heap id =
      (server.room id).cancelReaper := by
    rw [fired, if_pos rfl]
  have empty : ((server.room id).cancelReaper).peers.length = 0 :=
    List.length_eq_zero_iff.mpr nobody
  have found : (server.registry.modify id Room.cancelReaper).rooms.lookup
      (server.room id).cancelReaper.key = some id := registered
  rw [RoomRegistry.collect]
  simp only [here, if_pos empty]
  rw [RoomRegistry.release, found]
  refine ⟨?_, rfl, rfl⟩
  intro other
  rw [RoomRegistry.heap_modify]
  by_cases same : other = id
  · rw [if_pos same, if_pos same]
    exact congrArg Room.destroy here
  · rw [if_neg same, if_neg same]
    exact (fired other).trans (if_neg same)

/-- A timer takes a room nobody is in. -/
theorem timer (housed : Housed retentionMs server emptied) {id : RoomId} {due : EpochMillis}
    (pending : (server.room id).reaper = some due) :
    Housed retentionMs { server with registry := server.registry.collect id }
      (observe server { server with registry := server.registry.collect id } emptied) := by
  obtain ⟨registered, nobody, _, _⟩ := waiting housed pending
  obtain ⟨heap, next, rooms⟩ := collect_eq housed pending
  have distinct : ((removeEntry server.registry.rooms (server.room id).key).map Prod.fst).Nodup :=
    nodup_removeEntry housed.distinct _
  generalize afterDef : ({ server with registry := server.registry.collect id } : Server σ υ α) = after
  have room (other : RoomId) : after.room other =
      if other = id then (server.room id).cancelReaper.destroy else server.room other := by
    rw [← afterDef]
    exact heap other
  have current (sessionId : JsString) : after.current sessionId =
      if sessionId = (server.room id).key then none else server.current sessionId := by
    rw [← afterDef, Server.current, rooms]
    exact lookup_removeEntry housed.distinct _ _
  have made : after.registry.next = server.registry.next := by
    rw [← afterDef]
    exact next
  have connections : after.connections = server.connections := by rw [← afterDef]
  have nextPeer : after.nextPeer = server.nextPeer := by rw [← afterDef]
  have peers : after.peers = server.peers := by rw [← afterDef]
  have absent {peer : PeerId} (connected : peer ∈ server.connections) :
      (server.peers peer).room ≠ id := by
    intro inRoom
    have inside := (housed.attached id peer).mpr ⟨connected, inRoom⟩
    rw [nobody] at inside
    exact absurd inside List.not_mem_nil
  refine ⟨?_, ?_, ?_, ?_, ?_⟩
  · rw [← afterDef]
    show ((server.registry.collect id).rooms.map Prod.fst).Nodup
    rw [rooms]
    exact distinct
  · intro other
    by_cases here : other = id
    · subst here
      have unregistered (sessionId : JsString) : after.current sessionId ≠ some other := by
        rw [current]
        intro found
        split at found
        · cases found
        · rename_i apart
          exact apart (current_inj housed found registered)
      refine ⟨fun sessionId found => absurd found (unregistered sessionId),
        fun sessionId found => absurd found (unregistered sessionId), ?_, ?_⟩
      · intro _ _
        rw [room, if_pos rfl]
        exact ⟨rfl, rfl, rfl⟩
      · intro above
        rw [made] at above
        exact absurd ((housed.rooms other).keyed _ registered).1 (not_lt.mpr above)
    · have left : after.room other = server.room other := by rw [room, if_neg here]
      refine elsewhere housed (by rw [left]) (by rw [left]) (by rw [left]) (by rw [left]) ?_
        (by rw [made])
      intro sessionId
      rw [current]
      by_cases same : sessionId = (server.room id).key
      · rw [if_pos same, same, registered]
        simp [Ne.symm here]
      · rw [if_neg same]
  · intro other peer
    rw [connections, peers, room]
    by_cases here : other = id
    · rw [if_pos here, here]
      constructor
      · intro inside
        exact absurd inside List.not_mem_nil
      · rintro ⟨connected, inRoom⟩
        exact absurd inRoom (absent connected)
    · rw [if_neg here]
      exact housed.attached other peer
  · intro peer connected
    rw [connections] at connected
    have found := housed.held peer connected
    rw [peers, current, if_neg, found]
    intro same
    rw [same, registered] at found
    exact absent connected (Option.some.inj found).symm
  · intro peer connected
    rw [connections] at connected
    rw [nextPeer]
    exact housed.allocated peer connected

/-! ### A peer joins -/

/-- The room a peer joins, and what the registry is after. -/
structure Joined (server after : Server σ υ α) (sessionId : JsString) (id : RoomId) :
    Prop where
  distinct : (after.registry.rooms.map Prod.fst).Nodup
  current : ∀ other, after.current other =
    if other = sessionId then some id else server.current other
  before : ∀ other, server.current sessionId = some other → other = id
  own : ∀ other, server.current other = some id → other = sessionId
  made : id < after.registry.next
  others : ∀ other, other ≠ id → (other < after.registry.next ↔ other < server.registry.next)
  elsewhere : ∀ other, other ≠ id → after.room other = server.room other
  key : (after.room id).key = sessionId
  destroyed : (after.room id).destroyed = false
  reaper : (after.room id).reaper = none
  peers : ∀ peer, peer ∈ (after.room id).peers ↔
    peer ∈ (server.room id).peers ∨ peer = server.nextPeer
  doc : (after.room id).doc ⊆ (server.room id).doc

private theorem mem_addPeer (room : Room υ α) (added peer : PeerId) :
    peer ∈ (room.addPeer added).peers ↔ peer ∈ room.peers ∨ peer = added := by
  show peer ∈ (if added ∈ room.peers then room.peers else room.peers ++ [added]) ↔ _
  by_cases inside : added ∈ room.peers
  · rw [if_pos inside]
    refine ⟨.inl, fun either => either.elim id ?_⟩
    rintro rfl
    exact inside
  · rw [if_neg inside, List.mem_append, List.mem_singleton]

/-- The session had a room, which loses its timer. -/
private theorem join_existing (housed : Housed retentionMs server emptied) {sessionId : JsString}
    {id : RoomId} (found : server.current sessionId = some id) :
    Joined server (server.join sessionId) sessionId id := by
  have keyed := (housed.rooms id).keyed sessionId found
  have alive := ((housed.rooms id).serving sessionId found).1
  have acquired : server.registry.acquire sessionId =
      (id, server.registry.modify id Room.cancelReaper) := by
    rw [RoomRegistry.acquire]
    have looked : server.registry.rooms.lookup sessionId = some id := found
    rw [looked]
  have registry : (server.join sessionId).registry =
      ((server.registry.modify id Room.cancelReaper).attach id server.nextPeer).2 := by
    rw [Server.join, acquired]
  have room (other : RoomId) : (server.join sessionId).room other =
      if other = id then
        ((server.room id).cancelReaper.cancelReaper.addPeer server.nextPeer).markJoined
      else server.room other := by
    rw [Server.room, registry, RoomRegistry.attach, RoomRegistry.heap_modify,
      RoomRegistry.heap_modify, RoomRegistry.heap_modify, if_pos rfl]
    by_cases here : other = id
    · rw [if_pos here, if_pos here]
      rfl
    · rw [if_neg here, if_neg here, if_neg here]
      rfl
  have here := room id
  rw [if_pos rfl] at here
  have next : (server.join sessionId).registry.next = server.registry.next := by
    rw [registry]
    rfl
  have rooms : (server.join sessionId).registry.rooms = server.registry.rooms := by
    rw [registry]
    rfl
  refine ⟨?_, ?_, ?_, ?_, ?_, ?_, ?_, ?_, ?_, ?_, ?_, ?_⟩
  · rw [rooms]
    exact housed.distinct
  · intro other
    rw [Server.current, rooms]
    by_cases same : other = sessionId
    · rw [if_pos same, same]
      exact found
    · rw [if_neg same]
      rfl
  · intro other otherFound
    exact Option.some.inj (otherFound.symm.trans found)
  · intro other otherFound
    exact current_inj housed otherFound found
  · rw [next]
    exact keyed.1
  · intro other _
    rw [next]
  · intro other apart
    rw [room, if_neg apart]
  · rw [here]
    exact keyed.2
  · rw [here]
    exact alive
  · rw [here]
    rfl
  · intro peer
    rw [here]
    exact mem_addPeer _ _ _
  · rw [here]
    exact Finset.Subset.refl _

/-- The session had none, and gets a new one. -/
private theorem join_new (housed : Housed retentionMs server emptied) {sessionId : JsString}
    (absent : server.current sessionId = none) :
    Joined server (server.join sessionId) sessionId server.registry.next := by
  have acquired : server.registry.acquire sessionId =
      (server.registry.next,
        { heap := Function.update server.registry.heap server.registry.next (.create sessionId)
          next := server.registry.next + 1
          rooms := setEntry server.registry.rooms sessionId server.registry.next }) := by
    rw [RoomRegistry.acquire]
    have looked : server.registry.rooms.lookup sessionId = none := absent
    rw [looked]
  have registry : (server.join sessionId).registry =
      (RoomRegistry.attach
        { heap := Function.update server.registry.heap server.registry.next (.create sessionId)
          next := server.registry.next + 1
          rooms := setEntry server.registry.rooms sessionId server.registry.next }
        server.registry.next server.nextPeer).2 := by
    rw [Server.join, acquired]
  have room (other : RoomId) : (server.join sessionId).room other =
      if other = server.registry.next then
        ((Room.create sessionId).cancelReaper.addPeer server.nextPeer).markJoined
      else server.room other := by
    rw [Server.room, registry, RoomRegistry.attach, RoomRegistry.heap_modify]
    by_cases here : other = server.registry.next
    · rw [if_pos here, if_pos here]
      simp only [Function.update_self]
    · rw [if_neg here, if_neg here]
      exact Function.update_of_ne here _ _
  have here := room server.registry.next
  rw [if_pos rfl] at here
  have next : (server.join sessionId).registry.next = server.registry.next + 1 := by
    rw [registry]
    rfl
  have rooms : (server.join sessionId).registry.rooms =
      setEntry server.registry.rooms sessionId server.registry.next := by
    rw [registry]
    rfl
  have unmade := (housed.rooms server.registry.next).unmade le_rfl
  refine ⟨?_, ?_, ?_, ?_, ?_, ?_, ?_, ?_, ?_, ?_, ?_, ?_⟩
  · rw [rooms]
    exact nodup_setEntry housed.distinct _ _
  · intro other
    rw [Server.current, rooms, lookup_setEntry]
    rfl
  · intro other otherFound
    rw [absent] at otherFound
    cases otherFound
  · intro other otherFound
    exact absurd ((housed.rooms _).keyed other otherFound).1 (lt_irrefl _)
  · rw [next]
    exact Nat.lt_succ_self _
  · intro other apart
    rw [next]
    exact ⟨fun below => lt_of_le_of_ne (Nat.le_of_lt_succ below) apart, Nat.lt_succ_of_lt⟩
  · intro other apart
    rw [room, if_neg apart]
  · rw [here]
    rfl
  · rw [here]
    rfl
  · rw [here]
    rfl
  · intro peer
    rw [here, unmade.2.1]
    exact mem_addPeer (Room.create sessionId).cancelReaper server.nextPeer peer
  · rw [here]
    exact Finset.empty_subset _

/-- Either way the new peer is in the room its session has then. -/
theorem joins (housed : Housed retentionMs server emptied) (sessionId : JsString) :
    ∃ id, Joined server (server.join sessionId) sessionId id ∧
      ((server.join sessionId).peers server.nextPeer).room = id := by
  have own : ((server.join sessionId).peers server.nextPeer).room =
      (server.registry.acquire sessionId).1 := by
    show (Function.update server.peers server.nextPeer _ server.nextPeer).room = _
    rw [Function.update_self]
    rfl
  rw [own, RoomRegistry.acquire]
  cases found : server.current sessionId with
  | some id =>
      have looked : server.registry.rooms.lookup sessionId = some id := found
      exact ⟨id, join_existing housed found, by rw [looked]⟩
  | none =>
      have looked : server.registry.rooms.lookup sessionId = none := found
      exact ⟨server.registry.next, join_new housed found, by rw [looked]⟩

/-- A peer that joins is in the room its session has. -/
theorem join (housed : Housed retentionMs server emptied) (sessionId : JsString) :
    Housed retentionMs (server.join sessionId)
      (observe server (server.join sessionId) emptied) := by
  obtain ⟨id, joined, own⟩ := joins housed sessionId
  have fresh : server.nextPeer ∉ server.connections :=
    fun inside => absurd (housed.allocated _ inside) (lt_irrefl _)
  have record {peer : PeerId} (old : peer ≠ server.nextPeer) :
      (server.join sessionId).peers peer = server.peers peer :=
    Function.update_of_ne old _ _
  have session : ((server.join sessionId).peers server.nextPeer).sessionId = sessionId := by
    show (Function.update server.peers server.nextPeer _ server.nextPeer).sessionId = _
    rw [Function.update_self]
  have connections (peer : PeerId) : peer ∈ (server.join sessionId).connections ↔
      peer ∈ server.connections ∨ peer = server.nextPeer := by
    show peer ∈ server.connections ++ [server.nextPeer] ↔ _
    rw [List.mem_append, List.mem_singleton]
  refine ⟨joined.distinct, ?_, ?_, ?_, ?_⟩
  · intro other
    by_cases here : other = id
    · subst here
      have somebody : 0 < ((server.join sessionId).room other).peers.length :=
        List.length_pos_of_mem ((joined.peers server.nextPeer).mpr (.inr rfl))
      have registered : (server.join sessionId).current sessionId = some other := by
        rw [joined.current, if_pos rfl]
      refine ⟨?_, ?_, ?_, ?_⟩
      · intro otherSession found
        refine ⟨joined.made, ?_⟩
        rw [joined.current] at found
        split at found
        · rename_i same
          rw [same, joined.key]
        · rw [joined.own otherSession found, joined.key]
      · intro _ _
        refine ⟨joined.destroyed, .inl ⟨List.ne_nil_of_length_pos somebody, joined.reaper, ?_⟩⟩
        rw [observe, if_pos somebody]
      · intro _ unregistered
        rw [joined.key] at unregistered
        exact absurd registered unregistered
      · intro above
        exact absurd joined.made (not_lt.mpr above)
    · have left := joined.elsewhere other here
      refine elsewhere housed (by rw [left]) (by rw [left]) (by rw [left]) (by rw [left]) ?_
        (joined.others other here)
      intro otherSession
      rw [joined.current]
      by_cases same : otherSession = sessionId
      · rw [if_pos same, same]
        constructor
        · intro found
          exact absurd (Option.some.inj found).symm here
        · intro found
          exact absurd (joined.before other found) here
      · rw [if_neg same]
  · intro other peer
    by_cases isNew : peer = server.nextPeer
    · subst isNew
      rw [connections, own]
      by_cases here : other = id
      · rw [here, joined.peers]
        exact ⟨fun _ => ⟨.inr rfl, rfl⟩, fun _ => .inr rfl⟩
      · rw [joined.elsewhere other here, housed.attached]
        exact ⟨fun inside => absurd inside.1 fresh, fun inside => absurd inside.2.symm here⟩
    · rw [connections, record isNew, or_iff_left isNew, ← housed.attached]
      by_cases here : other = id
      · rw [here, joined.peers, or_iff_left isNew]
      · rw [joined.elsewhere other here]
  · intro peer inside
    by_cases isNew : peer = server.nextPeer
    · rw [isNew, own, session, joined.current, if_pos rfl]
    · have connected := ((connections peer).mp inside).resolve_right isNew
      have found := housed.held peer connected
      rw [record isNew, joined.current]
      by_cases same : (server.peers peer).sessionId = sessionId
      · rw [if_pos same]
        rw [same] at found
        rw [joined.before _ found]
      · rw [if_neg same, found]
  · intro peer inside
    show peer < server.nextPeer + 1
    rcases (connections peer).mp inside with old | rfl
    · exact Nat.lt_succ_of_lt (housed.allocated peer old)
    · exact Nat.lt_succ_self _

end Housed

end Assaybank.Collab
