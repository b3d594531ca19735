import Assaybank.Collab.Rooms

/-!
Owns the connections of a collaboration server (`apps/collab/src/server.ts`): what it does when an
upgrade is accepted, on each frame, and when a socket closes, one event at a time.

Contract: `Server.step` is one callback of the event loop run to its end. An event that cannot occur
in a state has no step: a frame or a close of a socket that has closed, a timer that is not due.

It does not own the decision on an upgrade, nor the bytes of a frame: a frame comes as it decodes,
`rejected` standing for the bytes that do not decode and for a payload the document library throws
on before it changes anything. What a state vector covers is a field of `DocumentLibrary`.
-/

namespace Assaybank.Collab

open Assaybank.Runtime Assaybank.Library Assaybank.Domain

variable {σ υ α : Type}

/-- State vectors and what they cover. -/
structure DocumentLibrary (σ υ : Type) where
  encodeStateVector : Finset υ → σ
  covers : σ → υ → Bool

/-- Every update of a document that a state vector does not cover. -/
def DocumentLibrary.encodeStateAsUpdate (library : DocumentLibrary σ υ) (doc : Finset υ)
    (stateVector : σ) : Finset υ :=
  doc.filter fun update => library.covers stateVector update = false

/-- A message of a socket. -/
inductive Inbound (σ υ α : Type) where
  | notBinary
  | rejected
  | syncStep1 (stateVector : σ)
  | syncStep2 (update : Finset υ)
  | syncUpdate (update : Finset υ)
  | awareness (payload : α)
  | queryAwareness
  | ignored

/-- A frame the server sends. -/
inductive Outbound (σ υ α : Type) where
  | syncStep1 (stateVector : σ)
  | syncStep2 (update : Finset υ)
  | syncUpdate (update : Finset υ)
  | awareness (payload : α)

/-- The updates a frame carries. -/
def Outbound.updates : Outbound σ υ α → Finset υ
  | .syncStep2 update => update
  | .syncUpdate update => update
  | .syncStep1 _ => ∅
  | .awareness _ => ∅

/-- One authenticated peer: its room, the session its ticket names, whether its socket is open, and
the record of what it was sent, the state vectors it presented and the updates it had applied. -/
structure PeerConnection (σ υ α : Type) where
  room : RoomId
  sessionId : JsString
  isOpen : Bool
  sent : List (Outbound σ υ α)
  presented : List σ
  applied : Finset υ

structure Server (σ υ α : Type) where
  registry : RoomRegistry υ α
  peers : PeerId → PeerConnection σ υ α
  nextPeer : PeerId
  connections : List PeerId
  now : EpochMillis

namespace Server

/-- A server that has just started. -/
def start (now : EpochMillis) : Server σ υ α := ⟨.empty, fun _ => ⟨0, [], false, [], [], ∅⟩, 0, [], now⟩

def room (server : Server σ υ α) (id : RoomId) : Room υ α := server.registry.heap id

def modifyPeer (server : Server σ υ α) (peer : PeerId)
    (change : PeerConnection σ υ α → PeerConnection σ υ α) : Server σ υ α :=
  { server with peers := Function.update server.peers peer (change (server.peers peer)) }

def modifyRoom (server : Server σ υ α) (id : RoomId) (change : Room υ α → Room υ α) :
    Server σ υ α :=
  { server with registry := server.registry.modify id change }

@[simp] theorem room_modifyPeer (server : Server σ υ α) (peer : PeerId)
    (change : PeerConnection σ υ α → PeerConnection σ υ α) (id : RoomId) :
    (server.modifyPeer peer change).room id = server.room id := rfl

theorem room_modifyRoom (server : Server σ υ α) (id other : RoomId)
    (change : Room υ α → Room υ α) : (server.modifyRoom id change).room other =
      if other = id then change (server.room id) else server.room other :=
  RoomRegistry.heap_modify ..

theorem peers_modifyPeer (server : Server σ υ α) (peer other : PeerId)
    (change : PeerConnection σ υ α → PeerConnection σ υ α) :
    (server.modifyPeer peer change).peers other =
      if other = peer then change (server.peers peer) else server.peers other :=
  Function.update_apply ..

/-- Sends one frame, to a socket that is open. -/
def send (server : Server σ υ α) (peer : PeerId) (frame : Outbound σ υ α) : Server σ υ α :=
  if (server.peers peer).isOpen then
    server.modifyPeer peer fun connection => { connection with sent := connection.sent ++ [frame] }
  else server

/-- Sends frames to peers one after the other. -/
def sendAll (server : Server σ υ α) (frames : List (PeerId × Outbound σ υ α)) : Server σ υ α :=
  frames.foldl (fun server frame => server.send frame.1 frame.2) server

@[simp] theorem now_send (server : Server σ υ α) (peer : PeerId) (frame : Outbound σ υ α) :
    (server.send peer frame).now = server.now := by
  unfold send
  split <;> rfl

@[simp] theorem now_sendAll (server : Server σ υ α) (frames : List (PeerId × Outbound σ υ α)) :
    (server.sendAll frames).now = server.now := by
  induction frames generalizing server with
  | nil => rfl
  | cons frame rest inductionHypothesis =>
      exact (inductionHypothesis _).trans (now_send server frame.1 frame.2)

/-- Sends a frame to every peer of a room except its origin. -/
def broadcast (server : Server σ υ α) (id : RoomId) (frame : Outbound σ υ α) (origin : PeerId) :
    Server σ υ α :=
  server.sendAll (((server.room id).peers.filter fun peer => peer ≠ origin).map (·, frame))

/-- Sends a peer what the others last published. -/
def sendAwareness (server : Server σ υ α) (id : RoomId) (peer : PeerId) : Server σ υ α :=
  server.sendAll
    (((server.room id).lastAwareness.filter fun entry => entry.1 ≠ peer).map fun entry =>
      (peer, .awareness entry.2))

/-- `socket.close`: the socket is open no more, though frames may still arrive. -/
def closeSocket (server : Server σ υ α) (peer : PeerId) : Server σ υ α :=
  server.modifyPeer peer fun connection => { connection with isOpen := false }

/-- Attaches a new peer to the document of the session its ticket names. -/
def join (server : Server σ υ α) (sessionId : JsString) : Server σ υ α :=
  let (id, acquired) := server.registry.acquire sessionId
  { server with
    registry := (acquired.attach id server.nextPeer).2
    peers := Function.update server.peers server.nextPeer ⟨id, sessionId, true, [], [], ∅⟩
    nextPeer := server.nextPeer + 1
    connections := server.connections ++ [server.nextPeer] }

/-- An accepted upgrade: the peer joins, and is sent the state vector of the document and what the
others last published. -/
def accept (library : DocumentLibrary σ υ) (server : Server σ υ α) (sessionId : JsString) :
    Server σ υ α :=
  let peer := server.nextPeer
  let joined := server.join sessionId
  let id := (joined.peers peer).room
  (joined.send peer (.syncStep1 (library.encodeStateVector (joined.room id).doc))).sendAwareness id
    peer

variable [DecidableEq υ]

/-- Applies an update to the document of a room and tells the others. -/
def applyUpdate (server : Server σ υ α) (peer : PeerId) (update : Finset υ) : Server σ υ α :=
  let id := (server.peers peer).room
  let applied := (server.modifyRoom id fun room => { room with doc := room.doc ∪ update }).modifyPeer
    peer fun connection => { connection with applied := connection.applied ∪ update }
  applied.broadcast id (.syncUpdate update) peer

def handleFrame (library : DocumentLibrary σ υ) (server : Server σ υ α) (peer : PeerId) :
    Inbound σ υ α → Server σ υ α
  | .notBinary => server.closeSocket peer
  | .rejected => server.closeSocket peer
  | .syncStep1 stateVector =>
      let doc := (server.room (server.peers peer).room).doc
      (server.send peer (.syncStep2 (library.encodeStateAsUpdate doc stateVector))).modifyPeer peer
        fun connection => { connection with presented := connection.presented ++ [stateVector] }
  | .syncStep2 update => server.applyUpdate peer update
  | .syncUpdate update => server.applyUpdate peer update
  | .awareness payload =>
      let id := (server.peers peer).room
      (server.modifyRoom id fun room =>
        { room with lastAwareness := setEntry room.lastAwareness peer payload }).broadcast id
          (.awareness payload) peer
  | .queryAwareness => server.sendAwareness (server.peers peer).room peer
  | .ignored => server

/-- The `close` event of a socket. -/
def closed (server : Server σ υ α) (peer : PeerId) (retentionMs : EpochMillis) : Server σ υ α :=
  { server.closeSocket peer with
    connections := server.connections.filter fun other => other ≠ peer
    registry := server.registry.detach (server.peers peer).room peer server.now retentionMs }

/-! ### Events -/

inductive Event (σ υ α : Type) where
  | upgrade (sessionId : JsString)
  | message (peer : PeerId) (frame : Inbound σ υ α)
  /-- The socket leaves its open state: a close frame of either side, or a termination. -/
  | closing (peer : PeerId)
  | close (peer : PeerId)
  | timer (id : RoomId)
  | tick (ms : Nat)

/-- One event. Frames and closes are of a socket whose `close` has not run; a timer fires once it is
due. -/
def step (library : DocumentLibrary σ υ) (retentionMs : EpochMillis) (server : Server σ υ α) :
    Event σ υ α → Option (Server σ υ α)
  | .upgrade sessionId => some (server.accept library sessionId)
  | .message peer frame =>
      if peer ∈ server.connections then some (server.handleFrame library peer frame) else none
  | .closing peer => if peer ∈ server.connections then some (server.closeSocket peer) else none
  | .close peer => if peer ∈ server.connections then some (server.closed peer retentionMs) else none
  | .timer id =>
      if (server.room id).reaper.any fun due => due ≤ server.now then
        some { server with registry := server.registry.collect id }
      else none
  | .tick ms => some { server with now := server.now + ms }

end Server

end Assaybank.Collab
