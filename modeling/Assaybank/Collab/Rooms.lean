import Assaybank.Domain.Deadline
import Assaybank.Library.OrderedMap
import Mathlib.Data.Finset.Basic
import Mathlib.Logic.Function.Basic

/-!
Owns the rooms of a collaboration server (`apps/collab/src/rooms.ts`): the live documents, who is
attached to each, and the collection of the empty ones.

A room is an object that outlives its entry in the registry, so rooms stand in a heap by identity
and the registry maps a session to one of them. A document is the set of the updates applied to it.
A pending collection is the instant it is due; the delays are within the range of a timer.
-/

namespace Assaybank.Collab

open Assaybank.Runtime Assaybank.Library Assaybank.Domain

abbrev RoomId := Nat

abbrev PeerId := Nat

variable {υ α : Type}

/-! ### One room -/

/-- One live document and its peers. -/
structure Room (υ α : Type) where
  key : JsString
  peers : List PeerId
  lastAwareness : List (PeerId × α)
  doc : Finset υ
  joined : Bool
  reaper : Option EpochMillis
  destroyed : Bool

/-- `new Room(key)`. -/
def Room.create (key : JsString) : Room υ α := ⟨key, [], [], ∅, false, none, false⟩

def Room.cancelReaper (room : Room υ α) : Room υ α := { room with reaper := none }

def Room.scheduleReaper (room : Room υ α) (due : EpochMillis) : Room υ α :=
  { room.cancelReaper with reaper := some due }

/-- Adding to a set leaves a peer that is there where it stands. -/
def Room.addPeer (room : Room υ α) (peer : PeerId) : Room υ α :=
  { room with peers := if peer ∈ room.peers then room.peers else room.peers ++ [peer] }

def Room.markJoined (room : Room υ α) : Room υ α := { room with joined := true }

def Room.dropPeer (room : Room υ α) (peer : PeerId) : Room υ α :=
  { room with
    peers := room.peers.filter fun other => other ≠ peer
    lastAwareness := removeEntry room.lastAwareness peer }

def Room.destroy (room : Room υ α) : Room υ α :=
  { room.cancelReaper with peers := [], lastAwareness := [], destroyed := true }

/-! ### The registry -/

/-- The rooms this instance is holding, in the heap of all it has made. -/
structure RoomRegistry (υ α : Type) where
  heap : RoomId → Room υ α
  next : RoomId
  rooms : List (JsString × RoomId)

namespace RoomRegistry

def empty : RoomRegistry υ α := ⟨fun _ => .create [], 0, []⟩

def modify (registry : RoomRegistry υ α) (id : RoomId) (change : Room υ α → Room υ α) :
    RoomRegistry υ α :=
  { registry with heap := Function.update registry.heap id (change (registry.heap id)) }

/-- The room for a key, created if this instance is not already holding it. -/
def acquire (registry : RoomRegistry υ α) (key : JsString) : RoomId × RoomRegistry υ α :=
  match registry.rooms.lookup key with
  | some existing => (existing, registry.modify existing Room.cancelReaper)
  | none =>
      let id := registry.next
      (id,
        { heap := Function.update registry.heap id (.create key)
          next := id + 1
          rooms := setEntry registry.rooms key id })

/-- Attaches a peer, and tells whether this is a rejoin. -/
def attach (registry : RoomRegistry υ α) (id : RoomId) (peer : PeerId) :
    Bool × RoomRegistry υ α :=
  ((registry.heap id).joined,
    registry.modify id fun room => (room.cancelReaper.addPeer peer).markJoined)

/-- Detaches a peer. An emptied room is kept for the retention window. -/
def detach (registry : RoomRegistry υ α) (id : RoomId) (peer : PeerId) (now retentionMs : EpochMillis) :
    RoomRegistry υ α :=
  registry.modify id fun room =>
    let left := room.dropPeer peer
    if 0 < left.peers.length then left else left.scheduleReaper (now + retentionMs)

/-- Drops a room and its document immediately. -/
def release (registry : RoomRegistry υ α) (key : JsString) : RoomRegistry υ α :=
  match registry.rooms.lookup key with
  | none => registry
  | some id =>
      { registry with rooms := removeEntry registry.rooms key }.modify id Room.destroy

/-- The timer of a room going off: it is pending no more, and its callback runs. -/
def collect (registry : RoomRegistry υ α) (id : RoomId) : RoomRegistry υ α :=
  let fired := registry.modify id Room.cancelReaper
  if (fired.heap id).peers.length = 0 then fired.release (fired.heap id).key else fired

/-! ### What each operation leaves of a room -/

theorem heap_modify (registry : RoomRegistry υ α) (id other : RoomId)
    (change : Room υ α → Room υ α) : (registry.modify id change).heap other =
      if other = id then change (registry.heap id) else registry.heap other :=
  Function.update_apply ..

@[simp] theorem rooms_modify (registry : RoomRegistry υ α) (id : RoomId)
    (change : Room υ α → Room υ α) : (registry.modify id change).rooms = registry.rooms := rfl

@[simp] theorem next_modify (registry : RoomRegistry υ α) (id : RoomId)
    (change : Room υ α → Room υ α) : (registry.modify id change).next = registry.next := rfl

end RoomRegistry

end Assaybank.Collab
