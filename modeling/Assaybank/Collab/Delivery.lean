import Assaybank.Collab.Lifetime

/-!
Contract: over every run of a collaboration server, an open peer has been told of every update of its
document that the state vector it presented does not cover and that it did not send itself, and no
update reaches a peer but those of its own room (`updates_delivered`).

The two halves of the delivery meet in one invariant (`Synced`): a reply carries the document as it
is, and from then on each update is broadcast to whoever is attached.
-/

namespace Assaybank.Collab

open Assaybank.Runtime Assaybank.Library Assaybank.Domain

variable {σ υ α : Type} {retentionMs : EpochMillis} {library : DocumentLibrary σ υ}

/-- The peer was sent the update, in a reply or a broadcast. -/
def PeerConnection.Delivered (connection : PeerConnection σ υ α) (update : υ) : Prop :=
  ∃ frame ∈ connection.sent, update ∈ frame.updates

/-! ### What sending does -/

/-- The same records but for what was sent, and the frames sent to whoever is open. -/
structure Sent (before after : Server σ υ α) (frames : List (PeerId × Outbound σ υ α)) : Prop where
  registry : after.registry = before.registry
  connections : after.connections = before.connections
  nextPeer : after.nextPeer = before.nextPeer
  room : ∀ peer, (after.peers peer).room = (before.peers peer).room
  isOpen : ∀ peer, (after.peers peer).isOpen = (before.peers peer).isOpen
  presented : ∀ peer, (after.peers peer).presented = (before.peers peer).presented
  applied : ∀ peer, (after.peers peer).applied = (before.peers peer).applied
  closed : ∀ peer, (before.peers peer).isOpen = false →
    (after.peers peer).sent = (before.peers peer).sent
  earlier : ∀ peer update, (before.peers peer).Delivered update →
    (after.peers peer).Delivered update
  reaches : ∀ peer frame update, (peer, frame) ∈ frames → (before.peers peer).isOpen = true →
    update ∈ frame.updates → (after.peers peer).Delivered update
  only : ∀ peer update, (after.peers peer).Delivered update →
    (before.peers peer).Delivered update ∨
      ∃ frame, (peer, frame) ∈ frames ∧ update ∈ frame.updates

private theorem sent_nil (server : Server σ υ α) : Sent server server [] where
  registry := rfl
  connections := rfl
  nextPeer := rfl
  room _ := rfl
  isOpen _ := rfl
  presented _ := rfl
  applied _ := rfl
  closed _ _ := rfl
  earlier _ _ delivered := delivered
  reaches _ _ _ inside := absurd inside List.not_mem_nil
  only _ _ delivered := .inl delivered

private theorem sent_send (server : Server σ υ α) (peer : PeerId) (frame : Outbound σ υ α) :
    Sent server (server.send peer frame) [(peer, frame)] := by
  unfold Server.send
  by_cases isOpen : (server.peers peer).isOpen
  · rw [if_pos isOpen]
    generalize afterDef : server.modifyPeer peer _ = after
    have record (other : PeerId) : after.peers other =
        if other = peer then
          { server.peers peer with sent := (server.peers peer).sent ++ [frame] }
        else server.peers other := by
      rw [← afterDef, Server.peers_modifyPeer]
    refine ⟨?_, ?_, ?_, ?_, ?_, ?_, ?_, ?_, ?_, ?_, ?_⟩
    · rw [← afterDef]
      rfl
    · rw [← afterDef]
      rfl
    · rw [← afterDef]
      rfl
    · intro other
      rw [record]
      split
      · rename_i same
        rw [same]
      · rfl
    · intro other
      rw [record]
      split
      · rename_i same
        rw [same]
      · rfl
    · intro other
      rw [record]
      split
      · rename_i same
        rw [same]
      · rfl
    · intro other
      rw [record]
      split
      · rename_i same
        rw [same]
      · rfl
    · intro other shut
      rw [record, if_neg]
      rintro rfl
      rw [isOpen] at shut
      cases shut
    · rintro other update ⟨past, inside, carries⟩
      rw [record]
      split
      · rename_i same
        rw [same] at inside
        exact ⟨past, List.mem_append_left _ inside, carries⟩
      · exact ⟨past, inside, carries⟩
    · intro other sent update inside _ carries
      rw [List.mem_singleton, Prod.mk.injEq] at inside
      rw [record, if_pos inside.1]
      exact ⟨frame, List.mem_append_right _ (List.mem_singleton_self _), inside.2 ▸ carries⟩
    · intro other update delivered
      rw [record] at delivered
      split at delivered
      · rename_i same
        obtain ⟨past, inside, carries⟩ := delivered
        rcases List.mem_append.mp inside with old | new
        · rw [same]
          exact .inl ⟨past, old, carries⟩
        · rw [List.mem_singleton.mp new] at carries
          exact .inr ⟨frame, by rw [same]; exact List.mem_singleton_self _, carries⟩
      · exact .inl delivered
  · rw [if_neg isOpen]
    have nothing := sent_nil server
    refine ⟨rfl, rfl, rfl, fun _ => rfl, fun _ => rfl, fun _ => rfl, fun _ => rfl, fun _ _ => rfl,
      nothing.earlier, ?_, fun _ _ delivered => .inl delivered⟩
    intro other sent update inside opened _
    rw [List.mem_singleton, Prod.mk.injEq] at inside
    rw [inside.1] at opened
    exact absurd opened isOpen

theorem sent_sendAll (server : Server σ υ α) (frames : List (PeerId × Outbound σ υ α)) :
    Sent server (server.sendAll frames) frames := by
  induction frames generalizing server with
  | nil => exact sent_nil server
  | cons entry rest inductionHypothesis =>
      have first := sent_send server entry.1 entry.2
      have later := inductionHypothesis (server.send entry.1 entry.2)
      refine ⟨later.registry.trans first.registry, later.connections.trans first.connections,
        later.nextPeer.trans first.nextPeer, fun peer => (later.room peer).trans (first.room peer),
        fun peer => (later.isOpen peer).trans (first.isOpen peer),
        fun peer => (later.presented peer).trans (first.presented peer),
        fun peer => (later.applied peer).trans (first.applied peer),
        fun peer shut => (later.closed peer ((first.isOpen peer).trans shut)).trans
          (first.closed peer shut),
        fun peer update delivered => later.earlier _ _ (first.earlier _ _ delivered), ?_, ?_⟩
      · intro peer frame update inside isOpen carries
        rcases List.mem_cons.mp inside with same | inside
        · apply later.earlier
          apply first.reaches peer frame update _ isOpen carries
          rw [same]
          exact List.mem_singleton_self _
        · exact later.reaches peer frame update inside ((first.isOpen peer).trans isOpen) carries
      · intro peer update delivered
        rcases later.only peer update delivered with before | ⟨frame, inside, carries⟩
        · rcases first.only peer update before with old | ⟨frame, inside, carries⟩
          · exact .inl old
          · refine .inr ⟨frame, ?_, carries⟩
            rw [List.mem_singleton] at inside
            rw [inside]
            exact List.mem_cons_self
        · exact .inr ⟨frame, List.mem_cons_of_mem _ inside, carries⟩

/-! ### The invariant -/

/-- What the peers have been told, beside the documents and what their own peers had applied. -/
structure Synced (library : DocumentLibrary σ υ) (server : Server σ υ α) : Prop where
  told : ∀ peer ∈ server.connections, (server.peers peer).isOpen = true →
    ∀ stateVector ∈ (server.peers peer).presented,
      ∀ update ∈ (server.room (server.peers peer).room).doc,
        library.covers stateVector update = true ∨ (server.peers peer).Delivered update ∨
          update ∈ (server.peers peer).applied
  origin : ∀ id, ∀ update ∈ (server.room id).doc,
    ∃ peer, (server.peers peer).room = id ∧ update ∈ (server.peers peer).applied
  received : ∀ peer update, (server.peers peer).Delivered update →
    ∃ other, (server.peers other).room = (server.peers peer).room ∧
      update ∈ (server.peers other).applied
  blank : ∀ peer, server.nextPeer ≤ peer → (server.peers peer).isOpen = false ∧
    (server.peers peer).sent = [] ∧ (server.peers peer).applied = ∅

theorem synced_start (now : EpochMillis) : Synced library (Server.start now : Server σ υ α) where
  told _ inside := absurd inside List.not_mem_nil
  origin _ _ inside := absurd inside (Finset.notMem_empty _)
  received _ _ delivered := absurd delivered.choose_spec.1 List.not_mem_nil
  blank _ _ := ⟨rfl, rfl, rfl⟩

/-- A change after which less is open, connected or held in a document. -/
structure Quiet (before after : Server σ υ α) : Prop where
  doc : ∀ id, (after.room id).doc ⊆ (before.room id).doc
  connections : ∀ peer ∈ after.connections, peer ∈ before.connections
  nextPeer : after.nextPeer = before.nextPeer
  room : ∀ peer, (after.peers peer).room = (before.peers peer).room
  isOpen : ∀ peer, (after.peers peer).isOpen = true → (before.peers peer).isOpen = true
  sent : ∀ peer, (after.peers peer).sent = (before.peers peer).sent
  presented : ∀ peer, (after.peers peer).presented = (before.peers peer).presented
  applied : ∀ peer, (after.peers peer).applied = (before.peers peer).applied

namespace Synced

variable {server after : Server σ υ α}

theorem quiet (synced : Synced library server) (change : Quiet server after) :
    Synced library after := by
  have delivered (peer : PeerId) (update : υ) :
      (after.peers peer).Delivered update ↔ (server.peers peer).Delivered update := by
    unfold PeerConnection.Delivered
    rw [change.sent]
  refine ⟨?_, ?_, ?_, ?_⟩
  · intro peer inside isOpen stateVector presented update held
    rw [change.presented] at presented
    rw [change.room] at held
    rw [delivered, change.applied]
    exact synced.told peer (change.connections peer inside) (change.isOpen peer isOpen) stateVector
      presented update (change.doc _ held)
  · intro id update held
    obtain ⟨peer, room, applied⟩ := synced.origin id update (change.doc id held)
    exact ⟨peer, (change.room peer).trans room, (change.applied peer).symm ▸ applied⟩
  · intro peer update told
    obtain ⟨other, room, applied⟩ := synced.received peer update ((delivered peer update).mp told)
    rw [change.room]
    exact ⟨other, (change.room other).trans room, (change.applied other).symm ▸ applied⟩
  · intro peer above
    rw [change.nextPeer] at above
    obtain ⟨shut, sent, applied⟩ := synced.blank peer above
    refine ⟨?_, (change.sent peer).trans sent, (change.applied peer).trans applied⟩
    by_contra opened
    rw [change.isOpen peer (by simpa using opened)] at shut
    cases shut

/-- Frames that carry to a peer only what was applied in its room. -/
theorem sent {frames : List (PeerId × Outbound σ υ α)} (synced : Synced library server)
    (sends : Sent server after frames)
    (own : ∀ peer frame, (peer, frame) ∈ frames → ∀ update ∈ frame.updates,
      ∃ other, (server.peers other).room = (server.peers peer).room ∧
        update ∈ (server.peers other).applied) :
    Synced library after := by
  have room (id : RoomId) : after.room id = server.room id := by
    rw [Server.room, sends.registry]
    rfl
  refine ⟨?_, ?_, ?_, ?_⟩
  · intro peer inside isOpen stateVector presented update held
    rw [sends.connections] at inside
    rw [sends.isOpen] at isOpen
    rw [sends.presented] at presented
    rw [sends.room, room] at held
    rw [sends.applied]
    rcases synced.told peer inside isOpen stateVector presented update held with
      covered | delivered | applied
    · exact .inl covered
    · exact .inr (.inl (sends.earlier peer update delivered))
    · exact .inr (.inr applied)
  · intro id update held
    rw [room] at held
    obtain ⟨peer, inRoom, applied⟩ := synced.origin id update held
    exact ⟨peer, (sends.room peer).trans inRoom, (sends.applied peer).symm ▸ applied⟩
  · intro peer update delivered
    have source : ∃ other, (server.peers other).room = (server.peers peer).room ∧
        update ∈ (server.peers other).applied := by
      rcases sends.only peer update delivered with before | ⟨frame, inside, carries⟩
      · exact synced.received peer update before
      · exact own peer frame inside update carries
    obtain ⟨other, inRoom, applied⟩ := source
    rw [sends.room]
    exact ⟨other, (sends.room other).trans inRoom, (sends.applied other).symm ▸ applied⟩
  · intro peer above
    rw [sends.nextPeer] at above
    obtain ⟨shut, nothing, applied⟩ := synced.blank peer above
    exact ⟨(sends.isOpen peer).trans shut, (sends.closed peer shut).trans nothing,
      (sends.applied peer).trans applied⟩

/-- Frames that carry no updates. -/
private theorem sent_plain {frames : List (PeerId × Outbound σ υ α)}
    (synced : Synced library server) (sends : Sent server after frames)
    (plain : ∀ peer frame, (peer, frame) ∈ frames → frame.updates = ∅) : Synced library after := by
  apply synced.sent sends
  intro peer frame inside update carries
  rw [plain peer frame inside] at carries
  exact absurd carries (Finset.notMem_empty update)

private theorem awareness_plain {entries : List (PeerId × α)} {target peer : PeerId}
    {frame : Outbound σ υ α}
    (inside : (peer, frame) ∈ entries.map fun entry => (target, Outbound.awareness entry.2)) :
    frame.updates = ∅ := by
  obtain ⟨entry, _, same⟩ := List.mem_map.mp inside
  cases same
  rfl

/-- A socket that closes is sent nothing more. -/
private theorem quiet_closeSocket (server : Server σ υ α) (peer : PeerId) :
    Quiet server (server.closeSocket peer) := by
  have record (other : PeerId) : (server.closeSocket peer).peers other =
      if other = peer then { server.peers peer with isOpen := false } else server.peers other :=
    Server.peers_modifyPeer ..
  have same (other : PeerId) :
      ((server.closeSocket peer).peers other).room = (server.peers other).room ∧
      ((server.closeSocket peer).peers other).sent = (server.peers other).sent ∧
      ((server.closeSocket peer).peers other).presented = (server.peers other).presented ∧
      ((server.closeSocket peer).peers other).applied = (server.peers other).applied := by
    rw [record]
    split
    · rename_i here
      rw [here]
      exact ⟨rfl, rfl, rfl, rfl⟩
    · exact ⟨rfl, rfl, rfl, rfl⟩
  refine ⟨fun _ => Finset.Subset.refl _, fun _ inside => inside, rfl, fun other => (same other).1,
    ?_, fun other => (same other).2.1, fun other => (same other).2.2.1,
    fun other => (same other).2.2.2⟩
  intro other opened
  rw [record] at opened
  split at opened
  · cases opened
  · exact opened

/-- A peer that joins has presented nothing and was told nothing. -/
private theorem join {emptied : Emptied} (housed : Housed retentionMs server emptied)
    (synced : Synced library server) (sessionId : JsString) :
    Synced library (server.join sessionId) := by
  obtain ⟨id, joined, _⟩ := housed.joins sessionId
  have doc (other : RoomId) :
      ((server.join sessionId).room other).doc ⊆ (server.room other).doc := by
    by_cases here : other = id
    · rw [here]
      exact joined.doc
    · rw [joined.elsewhere other here]
  have record {peer : PeerId} (old : peer ≠ server.nextPeer) :
      (server.join sessionId).peers peer = server.peers peer :=
    Function.update_of_ne old _ _
  have newRecord : ((server.join sessionId).peers server.nextPeer).presented = [] ∧
      ((server.join sessionId).peers server.nextPeer).sent = [] := by
    show (Function.update server.peers server.nextPeer _ server.nextPeer).presented = _ ∧
      (Function.update server.peers server.nextPeer _ server.nextPeer).sent = _
    rw [Function.update_self]
    exact ⟨rfl, rfl⟩
  have known {peer : PeerId} {update : υ} (applied : update ∈ (server.peers peer).applied) :
      peer ≠ server.nextPeer := by
    rintro rfl
    rw [(synced.blank _ le_rfl).2.2] at applied
    exact absurd applied (Finset.notMem_empty update)
  refine ⟨?_, ?_, ?_, ?_⟩
  · intro peer inside isOpen stateVector presented update held
    by_cases isNew : peer = server.nextPeer
    · rw [isNew, newRecord.1] at presented
      exact absurd presented List.not_mem_nil
    · rw [record isNew] at isOpen presented held ⊢
      have connected : peer ∈ server.connections :=
        (List.mem_append.mp inside).resolve_right fun last => isNew (List.mem_singleton.mp last)
      exact synced.told peer connected isOpen stateVector presented update (doc _ held)
  · intro other update held
    obtain ⟨peer, room, applied⟩ := synced.origin other update (doc other held)
    refine ⟨peer, ?_, ?_⟩
    · rw [record (known applied)]
      exact room
    · rw [record (known applied)]
      exact applied
  · intro peer update delivered
    by_cases isNew : peer = server.nextPeer
    · obtain ⟨frame, inside, _⟩ := delivered
      rw [isNew, newRecord.2] at inside
      exact absurd inside List.not_mem_nil
    · rw [record isNew] at delivered ⊢
      obtain ⟨other, room, applied⟩ := synced.received peer update delivered
      refine ⟨other, ?_, ?_⟩
      · rw [record (known applied)]
        exact room
      · rw [record (known applied)]
        exact applied
  · intro peer above
    have later : server.nextPeer + 1 ≤ peer := above
    rw [record (Nat.ne_of_gt later)]
    exact synced.blank peer (Nat.le_of_succ_le later)

/-- A reply carries whatever the presented state vector does not cover. -/
private theorem syncStep1 [DecidableEq υ] (synced : Synced library server) (peer : PeerId)
    (stateVector : σ) :
    Synced library (server.handleFrame library peer (.syncStep1 stateVector)) := by
  rw [Server.handleFrame]
  generalize frameDef : Outbound.syncStep2 (library.encodeStateAsUpdate
    (server.room (server.peers peer).room).doc stateVector) = frame
  have sends : Sent server (server.send peer frame) [(peer, frame)] := sent_send server peer frame
  have replied : Synced library (server.send peer frame) := by
    apply synced.sent sends
    intro other sent inside update carries
    rw [List.mem_singleton, Prod.mk.injEq] at inside
    rw [inside.2, ← frameDef] at carries
    rw [inside.1]
    exact synced.origin _ update (Finset.mem_filter.mp carries).1
  generalize server.send peer frame = middle at sends replied
  have record (other : PeerId) : (middle.modifyPeer peer fun connection =>
      { connection with presented := connection.presented ++ [stateVector] }).peers other =
        if other = peer then
          { middle.peers peer with presented := (middle.peers peer).presented ++ [stateVector] }
        else middle.peers other :=
    Server.peers_modifyPeer ..
  have room (id : RoomId) : middle.room id = server.room id := by
    rw [Server.room, sends.registry]
    rfl
  generalize afterDef : (middle.modifyPeer peer fun connection =>
      { connection with presented := connection.presented ++ [stateVector] }) = after at record ⊢
  have docs (id : RoomId) : after.room id = middle.room id := by rw [← afterDef]; rfl
  have connections : after.connections = middle.connections := by rw [← afterDef]; rfl
  have nextPeer : after.nextPeer = middle.nextPeer := by rw [← afterDef]; rfl
  have same (other : PeerId) : (after.peers other).room = (middle.peers other).room ∧
      (after.peers other).isOpen = (middle.peers other).isOpen ∧
      (after.peers other).sent = (middle.peers other).sent ∧
      (after.peers other).applied = (middle.peers other).applied := by
    rw [record]
    split
    · rename_i here
      rw [here]
      exact ⟨rfl, rfl, rfl, rfl⟩
    · exact ⟨rfl, rfl, rfl, rfl⟩
  have delivered (other : PeerId) (update : υ) :
      (after.peers other).Delivered update ↔ (middle.peers other).Delivered update := by
    unfold PeerConnection.Delivered
    rw [(same other).2.2.1]
  refine ⟨?_, ?_, ?_, ?_⟩
  · intro other inside isOpen known presented update held
    rw [connections] at inside
    rw [(same other).2.1] at isOpen
    rw [(same other).1, docs] at held
    rw [delivered, (same other).2.2.2]
    rw [record] at presented
    split at presented
    · rename_i here
      rcases List.mem_append.mp presented with old | new
      · rw [← here] at old
        exact replied.told other inside isOpen known old update held
      · -- The state vector just presented: the reply holds the rest of the document.
        rw [List.mem_singleton.mp new]
        by_cases covered : library.covers stateVector update = true
        · exact .inl covered
        · refine .inr (.inl (sends.reaches other frame update ?_ ?_ ?_))
          · rw [here]
            exact List.mem_singleton_self _
          · rw [← sends.isOpen]
            exact isOpen
          · rw [← frameDef]
            rw [sends.room, room, here] at held
            exact Finset.mem_filter.mpr ⟨held, by simpa using covered⟩
    · exact replied.told other inside isOpen known presented update held
  · intro id update held
    rw [docs] at held
    obtain ⟨other, inRoom, applied⟩ := replied.origin id update held
    exact ⟨other, (same other).1.trans inRoom, (same other).2.2.2.symm ▸ applied⟩
  · intro other update told
    obtain ⟨source, inRoom, applied⟩ := replied.received other update ((delivered other update).mp told)
    rw [(same other).1]
    exact ⟨source, (same source).1.trans inRoom, (same source).2.2.2.symm ▸ applied⟩
  · intro other above
    rw [nextPeer] at above
    rw [(same other).2.1, (same other).2.2.1, (same other).2.2.2]
    exact replied.blank other above

/-- An update is broadcast to everybody else in the room. -/
private theorem applyUpdate [DecidableEq υ] {emptied : Emptied} {peer : PeerId}
    (housed : Housed retentionMs server emptied) (synced : Synced library server)
    (connected : peer ∈ server.connections) (update : Finset υ) :
    Synced library (server.applyUpdate peer update) := by
  rw [Server.applyUpdate]
  generalize middleDef : ((server.modifyRoom (server.peers peer).room fun room =>
    { room with doc := room.doc ∪ update }).modifyPeer peer fun connection =>
      { connection with applied := connection.applied ∪ update }) = middle
  have doc (id : RoomId) : (middle.room id).doc =
      if id = (server.peers peer).room then (server.room id).doc ∪ update
      else (server.room id).doc := by
    rw [← middleDef, Server.room_modifyPeer, Server.room_modifyRoom]
    by_cases here : id = (server.peers peer).room
    · rw [if_pos here, if_pos here, here]
    · rw [if_neg here, if_neg here]
  have record (other : PeerId) : middle.peers other =
      if other = peer then
        { server.peers peer with applied := (server.peers peer).applied ∪ update }
      else server.peers other := by
    rw [← middleDef, Server.peers_modifyPeer]
    rfl
  have same (other : PeerId) : (middle.peers other).room = (server.peers other).room ∧
      (middle.peers other).isOpen = (server.peers other).isOpen ∧
      (middle.peers other).sent = (server.peers other).sent ∧
      (middle.peers other).presented = (server.peers other).presented ∧
      (server.peers other).applied ⊆ (middle.peers other).applied := by
    rw [record]
    split
    · rename_i here
      rw [here]
      exact ⟨rfl, rfl, rfl, rfl, Finset.subset_union_left⟩
    · exact ⟨rfl, rfl, rfl, rfl, Finset.Subset.refl _⟩
  have own : update ⊆ (middle.peers peer).applied := by
    rw [record, if_pos rfl]
    exact Finset.subset_union_right
  have delivered (other : PeerId) (single : υ) :
      (middle.peers other).Delivered single ↔ (server.peers other).Delivered single := by
    unfold PeerConnection.Delivered
    rw [(same other).2.2.1]
  have peers : (middle.room (server.peers peer).room).peers =
      (server.room (server.peers peer).room).peers := by
    rw [← middleDef, Server.room_modifyPeer, Server.room_modifyRoom, if_pos rfl]
  have connections : middle.connections = server.connections := by rw [← middleDef]; rfl
  have nextPeer : middle.nextPeer = server.nextPeer := by rw [← middleDef]; rfl
  have sends : Sent middle (middle.broadcast (server.peers peer).room (.syncUpdate update) peer) _ :=
    sent_sendAll middle _
  have target (other : PeerId) (frame : Outbound σ υ α) :
      (other, frame) ∈ ((middle.room (server.peers peer).room).peers.filter fun other =>
          other ≠ peer).map (·, Outbound.syncUpdate update) ↔
        (other ∈ server.connections ∧ (server.peers other).room = (server.peers peer).room) ∧
          other ≠ peer ∧ frame = .syncUpdate update := by
    rw [peers, List.mem_map]
    constructor
    · rintro ⟨member, inside, here⟩
      cases here
      rw [List.mem_filter, decide_eq_true_eq, housed.attached] at inside
      exact ⟨inside.1, inside.2, rfl⟩
    · rintro ⟨attached, apart, rfl⟩
      refine ⟨other, ?_, rfl⟩
      rw [List.mem_filter, decide_eq_true_eq, housed.attached]
      exact ⟨attached, apart⟩
  generalize middle.broadcast (server.peers peer).room (.syncUpdate update) peer = after at sends ⊢
  have docs (id : RoomId) : after.room id = middle.room id := by
    rw [Server.room, sends.registry]
    rfl
  refine ⟨?_, ?_, ?_, ?_⟩
  · intro other inside isOpen stateVector presented single held
    rw [sends.connections, connections] at inside
    rw [sends.isOpen, (same other).2.1] at isOpen
    rw [sends.presented, (same other).2.2.2.1] at presented
    rw [docs, sends.room, (same other).1, doc] at held
    rw [sends.applied]
    have before (old : single ∈ (server.room (server.peers other).room).doc) :
        library.covers stateVector single = true ∨ (after.peers other).Delivered single ∨
          single ∈ (middle.peers other).applied := by
      rcases synced.told other inside isOpen stateVector presented single old with
        covered | past | applied
      · exact .inl covered
      · exact .inr (.inl (sends.earlier other single ((delivered other single).mpr past)))
      · exact .inr (.inr ((same other).2.2.2.2 applied))
    split at held
    · rename_i inRoom
      rcases Finset.mem_union.mp held with old | new
      · exact before old
      · by_cases origin : other = peer
        · rw [origin]
          exact .inr (.inr (own new))
        · refine .inr (.inl (sends.reaches other (.syncUpdate update) single ?_ ?_ new))
          · exact (target other _).mpr ⟨⟨inside, inRoom⟩, origin, rfl⟩
          · exact (same other).2.1.trans isOpen
    · exact before held
  · intro id single held
    rw [docs, doc] at held
    have before (old : single ∈ (server.room id).doc) :
        ∃ other, (after.peers other).room = id ∧ single ∈ (after.peers other).applied := by
      obtain ⟨other, inRoom, applied⟩ := synced.origin id single old
      refine ⟨other, ?_, ?_⟩
      · rw [sends.room, (same other).1, inRoom]
      · rw [sends.applied]
        exact (same other).2.2.2.2 applied
    split at held
    · rename_i inRoom
      rcases Finset.mem_union.mp held with old | new
      · exact before old
      · refine ⟨peer, ?_, ?_⟩
        · rw [sends.room, (same peer).1, inRoom]
        · rw [sends.applied]
          exact own new
    · exact before held
  · intro other single told
    rw [sends.room, (same other).1]
    rcases sends.only other single told with past | ⟨frame, inside, carries⟩
    · obtain ⟨source, inRoom, applied⟩ :=
        synced.received other single ((delivered other single).mp past)
      refine ⟨source, ?_, ?_⟩
      · rw [sends.room, (same source).1, inRoom]
      · rw [sends.applied]
        exact (same source).2.2.2.2 applied
    · obtain ⟨⟨_, inRoom⟩, _, rfl⟩ := (target other frame).mp inside
      refine ⟨peer, ?_, ?_⟩
      · rw [sends.room, (same peer).1, inRoom]
      · rw [sends.applied]
        exact own carries
  · intro other above
    rw [sends.nextPeer, nextPeer] at above
    have apart : other ≠ peer := by
      rintro rfl
      exact absurd (housed.allocated other connected) (not_lt.mpr above)
    obtain ⟨shut, nothing, applied⟩ := synced.blank other above
    have unchanged : middle.peers other = server.peers other := by rw [record, if_neg apart]
    rw [sends.isOpen, sends.closed other (by rw [unchanged, shut]), sends.applied, unchanged]
    exact ⟨shut, nothing, applied⟩

/-- One event keeps what has been delivered in step with the documents. -/
theorem step [DecidableEq υ] {emptied : Emptied} {event : Server.Event σ υ α}
    (housed : Housed retentionMs server emptied) (synced : Synced library server)
    (stepped : server.step library retentionMs event = some after) : Synced library after := by
  cases event with
  | upgrade sessionId =>
      cases stepped
      rw [Server.accept]
      apply sent_plain _ (sent_sendAll _ _) (fun _ _ inside => awareness_plain inside)
      apply sent_plain (synced.join housed sessionId) (sent_send _ _ _)
      intro peer frame inside
      cases List.mem_singleton.mp inside
      rfl
  | message peer frame =>
      rw [Server.step, Option.ite_none_right_eq_some] at stepped
      obtain ⟨connected, handled⟩ := stepped
      cases handled
      cases frame with
      | notBinary => exact synced.quiet (quiet_closeSocket server peer)
      | rejected => exact synced.quiet (quiet_closeSocket server peer)
      | syncStep1 stateVector => exact synced.syncStep1 peer stateVector
      | syncStep2 update => exact synced.applyUpdate housed connected update
      | syncUpdate update => exact synced.applyUpdate housed connected update
      | awareness payload =>
          have kept : Synced library (server.modifyRoom (server.peers peer).room fun room =>
              { room with lastAwareness := setEntry room.lastAwareness peer payload }) := by
            refine synced.quiet ⟨?_, fun _ inside => inside, rfl, fun _ => rfl,
              fun _ opened => opened, fun _ => rfl, fun _ => rfl, fun _ => rfl⟩
            intro id
            rw [Server.room_modifyRoom]
            by_cases here : id = (server.peers peer).room
            · rw [if_pos here, here]
            · rw [if_neg here]
          apply sent_plain kept (sent_sendAll _ _)
          intro other frame inside
          obtain ⟨member, _, same⟩ := List.mem_map.mp inside
          cases same
          rfl
      | queryAwareness =>
          exact sent_plain synced (sent_sendAll _ _) (fun _ _ inside => awareness_plain inside)
      | ignored => exact synced
  | closing peer =>
      rw [Server.step, Option.ite_none_right_eq_some] at stepped
      cases stepped.2
      exact synced.quiet (quiet_closeSocket server peer)
  | close peer =>
      rw [Server.step, Option.ite_none_right_eq_some] at stepped
      cases stepped.2
      have shut := quiet_closeSocket server peer
      exact synced.quiet ⟨fun id => (Housed.doc_closed server peer retentionMs id).subset,
        fun other inside => (List.mem_filter.mp inside).1, rfl, shut.room, shut.isOpen, shut.sent,
        shut.presented, shut.applied⟩
  | timer id =>
      rw [Server.step, Option.ite_none_right_eq_some, Option.any_eq_true] at stepped
      obtain ⟨⟨due, pending, _⟩, collected⟩ := stepped
      cases collected
      refine synced.quiet ⟨?_, fun _ inside => inside, rfl, fun _ => rfl, fun _ opened => opened,
        fun _ => rfl, fun _ => rfl, fun _ => rfl⟩
      intro other
      show ((server.registry.collect id).heap other).doc ⊆ _
      rw [(Housed.collect_eq housed pending).1]
      by_cases here : other = id
      · rw [if_pos here, here]
        exact Finset.Subset.refl _
      · rw [if_neg here]
  | tick ms =>
      cases stepped
      exact synced.quiet ⟨fun _ => Finset.Subset.refl _, fun _ inside => inside, rfl, fun _ => rfl,
        fun _ opened => opened, fun _ => rfl, fun _ => rfl, fun _ => rfl⟩

end Synced

variable [DecidableEq υ]

theorem synced_reachable {server : Server σ υ α} {emptied : Emptied}
    (reached : Reachable library retentionMs server emptied) : Synced library server := by
  induction reached with
  | start now => exact synced_start now
  | step event before stepped inductionHypothesis =>
      exact inductionHypothesis.step (housed_reachable before) stepped

/-! ### Delivery -/

omit [DecidableEq υ] in
private theorem sent_of_delivered {before after : PeerConnection σ υ α} {update : υ}
    (same : after.sent = before.sent) (told : after.Delivered update) : before.Delivered update := by
  obtain ⟨frame, inside, carries⟩ := told
  exact ⟨frame, same ▸ inside, carries⟩

/-- A frame is answered to its peer or broadcast to its room. -/
private theorem applyUpdate_reaches {server : Server σ υ α} {peer other : PeerId}
    {update : Finset υ} {single : υ}
    (told : ((server.applyUpdate peer update).peers other).Delivered single) :
    (server.peers other).Delivered single ∨ other ∈ (server.room (server.peers peer).room).peers := by
  rw [Server.applyUpdate] at told
  rcases (sent_sendAll _ _).only other single told with past | ⟨frame, inside, _⟩
  · refine .inl (sent_of_delivered ?_ past)
    rw [Server.peers_modifyPeer]
    split
    · rename_i same
      rw [same]
      rfl
    · rfl
  · obtain ⟨member, listed, same⟩ := List.mem_map.mp inside
    cases same
    have attached := (List.mem_filter.mp listed).1
    rw [Server.room_modifyPeer, Server.room_modifyRoom, if_pos rfl] at attached
    exact .inr attached

private theorem handleFrame_reaches {server : Server σ υ α} {peer other : PeerId}
    {frame : Inbound σ υ α} {update : υ}
    (told : ((server.handleFrame library peer frame).peers other).Delivered update) :
    (server.peers other).Delivered update ∨ other = peer ∨
      other ∈ (server.room (server.peers peer).room).peers := by
  cases frame with
  | notBinary => exact .inl (sent_of_delivered ((Synced.quiet_closeSocket server peer).sent other) told)
  | rejected => exact .inl (sent_of_delivered ((Synced.quiet_closeSocket server peer).sent other) told)
  | syncStep1 stateVector =>
      rw [Server.handleFrame] at told
      generalize Outbound.syncStep2 _ = reply at told
      have replied : ((server.send peer reply).peers other).Delivered update := by
        refine sent_of_delivered ?_ told
        rw [Server.peers_modifyPeer]
        split
        · rename_i same
          rw [same]
        · rfl
      rcases (sent_send server peer reply).only other update replied with past | ⟨_, inside, _⟩
      · exact .inl past
      · rw [List.mem_singleton, Prod.mk.injEq] at inside
        exact .inr (.inl inside.1)
  | syncStep2 sent => exact (applyUpdate_reaches told).imp_right .inr
  | syncUpdate sent => exact (applyUpdate_reaches told).imp_right .inr
  | awareness payload =>
      rcases (sent_sendAll _ _).only other update told with past | ⟨frame, inside, carries⟩
      · exact .inl past
      · obtain ⟨_, _, same⟩ := List.mem_map.mp inside
        cases same
        exact absurd carries (Finset.notMem_empty update)
  | queryAwareness =>
      rcases (sent_sendAll _ _).only other update told with past | ⟨frame, inside, carries⟩
      · exact .inl past
      · rw [Synced.awareness_plain inside] at carries
        exact absurd carries (Finset.notMem_empty update)
  | ignored => exact .inl told

/-- On one event updates reach a peer only from a message of a peer of its room. -/
private theorem delivered_in_room {server after : Server σ υ α} {emptied : Emptied}
    {event : Server.Event σ υ α} (housed : Housed retentionMs server emptied)
    (stepped : server.step library retentionMs event = some after) {peer : PeerId} {update : υ}
    (told : (after.peers peer).Delivered update) :
    (server.peers peer).Delivered update ∨
      ∃ origin frame, event = .message origin frame ∧
        (server.peers origin).room = (server.peers peer).room := by
  cases event with
  | upgrade sessionId =>
      cases stepped
      rw [Server.accept] at told
      rcases (sent_sendAll _ _).only peer update told with greeted | ⟨frame, inside, carries⟩
      · rcases (sent_send _ _ _).only peer update greeted with joined | ⟨frame, inside, carries⟩
        · by_cases isNew : peer = server.nextPeer
          · obtain ⟨frame, inside, _⟩ := joined
            rw [isNew] at inside
            have nothing : ((server.join sessionId).peers server.nextPeer).sent = [] := by
              show (Function.update server.peers server.nextPeer _ server.nextPeer).sent = _
              rw [Function.update_self]
            rw [nothing] at inside
            exact absurd inside List.not_mem_nil
          · have record : (server.join sessionId).peers peer = server.peers peer :=
              Function.update_of_ne isNew _ _
            rw [record] at joined
            exact .inl joined
        · cases List.mem_singleton.mp inside
          exact absurd carries (Finset.notMem_empty update)
      · rw [Synced.awareness_plain inside] at carries
        exact absurd carries (Finset.notMem_empty update)
  | message origin frame =>
      rw [Server.step, Option.ite_none_right_eq_some] at stepped
      obtain ⟨_, handled⟩ := stepped
      cases handled
      rcases handleFrame_reaches told with past | rfl | inside
      · exact .inl past
      · exact .inr ⟨peer, frame, rfl, rfl⟩
      · exact .inr ⟨origin, frame, rfl, ((housed.attached _ peer).mp inside).2.symm⟩
  | closing other =>
      rw [Server.step, Option.ite_none_right_eq_some] at stepped
      cases stepped.2
      exact .inl (sent_of_delivered ((Synced.quiet_closeSocket server other).sent peer) told)
  | close other =>
      rw [Server.step, Option.ite_none_right_eq_some] at stepped
      cases stepped.2
      exact .inl (sent_of_delivered ((Synced.quiet_closeSocket server other).sent peer) told)
  | timer id =>
      rw [Server.step, Option.ite_none_right_eq_some] at stepped
      cases stepped.2
      exact .inl told
  | tick ms =>
      cases stepped
      exact .inl told

/-! ### What is on record -/

/-- What an event leaves on record: a step 1 that decodes is presented, an update that decodes is
applied by its peer and to the document of its room, and what was on record stays. -/
structure Recorded (before after : Server σ υ α) (event : Server.Event σ υ α) : Prop where
  presented : ∀ peer stateVector, event = .message peer (.syncStep1 stateVector) →
    stateVector ∈ (after.peers peer).presented
  applied : ∀ peer update,
    event = .message peer (.syncStep2 update) ∨ event = .message peer (.syncUpdate update) →
      update ⊆ (after.peers peer).applied ∧ update ⊆ (after.room (after.peers peer).room).doc
  kept : ∀ peer < before.nextPeer, (before.peers peer).presented ⊆ (after.peers peer).presented ∧
    (before.peers peer).applied ⊆ (after.peers peer).applied

/-- Whether an event is a step 1 or an update that decodes. -/
private def Server.Event.syncs : Server.Event σ υ α → Bool
  | .message _ (.syncStep1 _) => true
  | .message _ (.syncStep2 _) => true
  | .message _ (.syncUpdate _) => true
  | _ => false

omit [DecidableEq υ] in
/-- An event that presents and applies nothing. -/
private theorem recorded_plain {before after : Server σ υ α} {event : Server.Event σ υ α}
    (plain : event.syncs = false)
    (presented : ∀ peer < before.nextPeer,
      (after.peers peer).presented = (before.peers peer).presented)
    (applied : ∀ peer < before.nextPeer, (after.peers peer).applied = (before.peers peer).applied) :
    Recorded before after event := by
  refine ⟨?_, ?_, ?_⟩
  · intro peer stateVector same
    rw [same] at plain
    cases plain
  · rintro peer update (same | same)
    · rw [same] at plain
      cases plain
    · rw [same] at plain
      cases plain
  · intro peer old
    rw [presented peer old, applied peer old]
    exact ⟨List.Subset.refl _, Finset.Subset.refl _⟩

/-- An update that decodes is applied, to the document too. -/
private theorem recorded_applyUpdate (server : Server σ υ α) (peer : PeerId) (update : Finset υ)
    {event : Server.Event σ υ α}
    (sync : event = .message peer (.syncStep2 update) ∨ event = .message peer (.syncUpdate update)) :
    Recorded server (server.applyUpdate peer update) event := by
  rw [Server.applyUpdate]
  generalize middleDef : ((server.modifyRoom (server.peers peer).room fun room =>
    { room with doc := room.doc ∪ update }).modifyPeer peer fun connection =>
      { connection with applied := connection.applied ∪ update }) = middle
  have sends : Sent middle (middle.broadcast (server.peers peer).room (.syncUpdate update) peer) _ :=
    sent_sendAll middle _
  have record (other : PeerId) : middle.peers other =
      if other = peer then
        { server.peers peer with applied := (server.peers peer).applied ∪ update }
      else server.peers other := by
    rw [← middleDef, Server.peers_modifyPeer]
    rfl
  have own : (middle.peers peer).room = (server.peers peer).room := by rw [record, if_pos rfl]
  have doc : update ⊆ (middle.room (server.peers peer).room).doc := by
    rw [← middleDef, Server.room_modifyPeer, Server.room_modifyRoom, if_pos rfl]
    exact Finset.subset_union_right
  generalize middle.broadcast (server.peers peer).room (.syncUpdate update) peer = after at sends ⊢
  refine ⟨?_, ?_, ?_⟩
  · intro other stateVector same
    rcases sync with here | here <;> rw [here] at same <;> cases same
  · intro other single same
    have here : other = peer ∧ single = update := by
      rcases sync with sync | sync <;> rcases same with same | same <;> rw [sync] at same <;>
        cases same <;> exact ⟨rfl, rfl⟩
    rw [here.1, here.2, sends.applied, sends.room, own, Server.room, sends.registry]
    refine ⟨?_, doc⟩
    rw [record, if_pos rfl]
    exact Finset.subset_union_right
  · intro other _
    rw [sends.presented, sends.applied, record]
    split
    · rename_i here
      rw [here]
      exact ⟨List.Subset.refl _, Finset.subset_union_left⟩
    · exact ⟨List.Subset.refl _, Finset.Subset.refl _⟩

/-- A step 1 that decodes is presented. -/
private theorem recorded_syncStep1 (library : DocumentLibrary σ υ) (server : Server σ υ α)
    (peer : PeerId) (stateVector : σ) :
    Recorded server (server.handleFrame library peer (.syncStep1 stateVector))
      (.message peer (.syncStep1 stateVector)) := by
  rw [Server.handleFrame]
  generalize Outbound.syncStep2 _ = reply
  have sends : Sent server (server.send peer reply) [(peer, reply)] := sent_send server peer reply
  generalize server.send peer reply = middle at sends
  have record (other : PeerId) : (middle.modifyPeer peer fun connection =>
      { connection with presented := connection.presented ++ [stateVector] }).peers other =
        if other = peer then
          { middle.peers peer with presented := (middle.peers peer).presented ++ [stateVector] }
        else middle.peers other :=
    Server.peers_modifyPeer ..
  refine ⟨?_, ?_, ?_⟩
  · intro other known same
    cases same
    rw [record, if_pos rfl]
    exact List.mem_append_right _ (List.mem_singleton_self _)
  · rintro other update (same | same) <;> cases same
  · intro other _
    rw [record, ← sends.presented, ← sends.applied]
    split
    · rename_i here
      rw [here]
      exact ⟨List.subset_append_left _ _, Finset.Subset.refl _⟩
    · exact ⟨List.Subset.refl _, Finset.Subset.refl _⟩

/-- Every event leaves what it should on record. -/
theorem recorded_step {server after : Server σ υ α} {event : Server.Event σ υ α}
    (stepped : server.step library retentionMs event = some after) :
    Recorded server after event := by
  cases event with
  | upgrade sessionId =>
      cases stepped
      rw [Server.accept]
      have joined (peer : PeerId) (old : peer < server.nextPeer) :
          (server.join sessionId).peers peer = server.peers peer :=
        Function.update_of_ne (Nat.ne_of_lt old) _ _
      refine recorded_plain rfl ?_ ?_
      · intro peer old
        rw [← joined peer old]
        exact ((sent_sendAll _ _).presented peer).trans ((sent_send _ _ _).presented peer)
      · intro peer old
        rw [← joined peer old]
        exact ((sent_sendAll _ _).applied peer).trans ((sent_send _ _ _).applied peer)
  | message peer frame =>
      rw [Server.step, Option.ite_none_right_eq_some] at stepped
      obtain ⟨_, handled⟩ := stepped
      cases handled
      have shut := Synced.quiet_closeSocket server peer
      cases frame with
      | notBinary =>
          exact recorded_plain rfl (fun other _ => shut.presented other) fun other _ =>
            shut.applied other
      | rejected =>
          exact recorded_plain rfl (fun other _ => shut.presented other) fun other _ =>
            shut.applied other
      | syncStep1 stateVector => exact recorded_syncStep1 library server peer stateVector
      | syncStep2 update => exact recorded_applyUpdate server peer update (.inl rfl)
      | syncUpdate update => exact recorded_applyUpdate server peer update (.inr rfl)
      | awareness payload =>
          exact recorded_plain rfl (fun other _ => (sent_sendAll _ _).presented other)
            fun other _ => (sent_sendAll _ _).applied other
      | queryAwareness =>
          exact recorded_plain rfl (fun other _ => (sent_sendAll _ _).presented other)
            fun other _ => (sent_sendAll _ _).applied other
      | ignored =>
          exact recorded_plain rfl (fun _ _ => rfl) fun _ _ => rfl
  | closing peer =>
      rw [Server.step, Option.ite_none_right_eq_some] at stepped
      cases stepped.2
      have shut := Synced.quiet_closeSocket server peer
      exact recorded_plain rfl (fun other _ => shut.presented other) fun other _ =>
        shut.applied other
  | close peer =>
      rw [Server.step, Option.ite_none_right_eq_some] at stepped
      cases stepped.2
      have shut := Synced.quiet_closeSocket server peer
      exact recorded_plain rfl (fun other _ => shut.presented other) fun other _ =>
        shut.applied other
  | timer id =>
      rw [Server.step, Option.ite_none_right_eq_some] at stepped
      cases stepped.2
      exact recorded_plain rfl (fun _ _ => rfl) fun _ _ => rfl
  | tick ms =>
      cases stepped
      exact recorded_plain rfl (fun _ _ => rfl) fun _ _ => rfl

/-- Over every run: an open peer was sent, in a reply or a broadcast, every update of its document
but those covered by a state vector it presented and those it had applied itself; what it was sent
was applied by a peer of its room; and it was sent on a message of a peer of its room. Each event
puts the step 1 and the updates it handles on record. -/
theorem updates_delivered (library : DocumentLibrary σ υ) (retentionMs : EpochMillis)
    {server : Server σ υ α} {emptied : Emptied}
    (reached : Reachable library retentionMs server emptied) :
    (∀ peer ∈ server.connections, (server.peers peer).isOpen = true →
      ∀ stateVector ∈ (server.peers peer).presented,
        ∀ update ∈ (server.room (server.peers peer).room).doc,
          library.covers stateVector update = true ∨ (server.peers peer).Delivered update ∨
            update ∈ (server.peers peer).applied) ∧
      (∀ peer update, (server.peers peer).Delivered update →
        ∃ other, (server.peers other).room = (server.peers peer).room ∧
          update ∈ (server.peers other).applied) ∧
      (∀ event after, server.step library retentionMs event = some after →
        ∀ peer update, (after.peers peer).Delivered update →
          (server.peers peer).Delivered update ∨
            ∃ origin frame, event = .message origin frame ∧
              (server.peers origin).room = (server.peers peer).room) ∧
      ∀ event after, server.step library retentionMs event = some after →
        Recorded server after event := by
  have synced := synced_reachable reached
  refine ⟨synced.told, synced.received, ?_, fun _ _ => recorded_step⟩
  intro event after stepped peer update told
  exact delivered_in_room (housed_reachable reached) stepped told

/-- Two peers of one room: the second presents an empty document before the first sends an update,
and sends one of its own, the first presents a document after it. -/
def sampleEdits : List (Server.Event (Finset Nat) Nat Unit) :=
  [.upgrade (js "s"), .upgrade (js "s"), .message 1 (.syncStep1 ∅), .message 0 (.syncUpdate {7}),
    .message 1 (.syncStep2 {8}), .message 0 (.syncStep1 {7})]

def sampleEdited : Server (Finset Nat) Nat Unit × Emptied :=
  (Server.observed setLibrary 300000 sampleEdits sampleStart).getD sampleStart

theorem updates_delivered_example :
    ((sampleEdited.1.peers 1).presented = [∅] ∧ (sampleEdited.1.peers 1).applied = {8} ∧
      (sampleEdited.1.room (sampleEdited.1.peers 1).room).doc = {7, 8} ∧
      (sampleEdited.1.peers 0).presented = [{7}] ∧ (sampleEdited.1.peers 0).applied = {7}) ∧
    (∀ peer ∈ sampleEdited.1.connections, (sampleEdited.1.peers peer).isOpen = true →
      ∀ stateVector ∈ (sampleEdited.1.peers peer).presented,
        ∀ update ∈ (sampleEdited.1.room (sampleEdited.1.peers peer).room).doc,
          setLibrary.covers stateVector update = true ∨
            (sampleEdited.1.peers peer).Delivered update ∨
              update ∈ (sampleEdited.1.peers peer).applied) ∧
      (∀ peer update, (sampleEdited.1.peers peer).Delivered update →
        ∃ other, (sampleEdited.1.peers other).room = (sampleEdited.1.peers peer).room ∧
          update ∈ (sampleEdited.1.peers other).applied) ∧
      (∀ event after, sampleEdited.1.step setLibrary 300000 event = some after →
        ∀ peer update, (after.peers peer).Delivered update →
          (sampleEdited.1.peers peer).Delivered update ∨
            ∃ origin frame, event = .message origin frame ∧
              (sampleEdited.1.peers origin).room = (sampleEdited.1.peers peer).room) ∧
      ∀ event after, sampleEdited.1.step setLibrary 300000 event = some after →
        Recorded sampleEdited.1 after event := by
  have ran : Server.observed setLibrary 300000 sampleEdits sampleStart = some sampleEdited := rfl
  have reached := reachable_observed (.start 0) ran
  exact ⟨by decide, updates_delivered setLibrary 300000 reached⟩

end Assaybank.Collab
