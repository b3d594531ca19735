import Assaybank.Domain.Deadline
import Assaybank.Library.SweptMap
import Assaybank.Runtime.Text
import Mathlib.Data.Rat.Floor
import Mathlib.Logic.Function.Basic

/-!
Owns the stores that make a credential usable once (`apps/api/src/credentials/single-use.ts`): the
one in memory, which forgets what has expired when it is next asked, and the one over a server that
sets a key when it is absent.

Contract: under a clock that starts at the epoch or later and never goes back, each store refuses a
credential while a use of it that was granted lasts and grants it after; at the very instant a use
ends the one in memory grants, and the other does what the server does. So a run in which no
credential is claimed at such an instant is answered alike, and the store in memory holds nothing
that expired an interval ago or more (`singleUse_claims`).

It does not own the server, which is a service: a key is there until its time to live has passed, and
it is the server's affair whether at that instant it still is. Nor does it own a server that cannot
be reached.
-/

namespace Assaybank.Credentials.SingleUse

open Assaybank.Runtime Assaybank.Library Assaybank.Domain

inductive ClaimOutcome where
  | claimed
  | replayed
deriving DecidableEq

/-- A call of `claim`, and the clock when it is made. -/
structure ClaimCall where
  key : JsString
  ttlMs : ℚ
  now : EpochMillis

/-- `Math.max(1, Math.ceil(ttlMs))`. -/
def lifetime (ttlMs : ℚ) : Int := max 1 ⌈ttlMs⌉

/-- The instant a use that is granted ends. -/
def ClaimCall.ends (call : ClaimCall) : EpochMillis := call.now + lifetime call.ttlMs

def singleUseTerms : Claims.Terms ClaimCall JsString := ⟨ClaimCall.key, ClaimCall.now⟩

/-! ### The store over a server -/

/-- A server that sets a key when it is absent: its `SET key value PX ttl NX` with the reply, the keys
it holds at an instant, and whether a key that expires at one instant is held at another. -/
structure Server (State : Type) where
  start : State
  set : State → JsString → Int → EpochMillis → Option JsString × State
  holds : State → JsString → EpochMillis → Bool
  keeps : EpochMillis → EpochMillis → Bool

/-- What is relied on: the server starts empty; the reply is `null` when the key is there; a key that
was set is held as long as it is kept, and no other changes; it is kept until it expires, and not
after. -/
structure Server.Documented {State : Type} (server : Server State) : Prop where
  empty : ∀ key at_, server.holds server.start key at_ = false
  answers : ∀ state key ttlMs now,
    (server.set state key ttlMs now).1 = none ↔ server.holds state key now = true
  holds : ∀ state key ttlMs now other at_, now ≤ at_ →
    server.holds (server.set state key ttlMs now).2 other at_ =
      (server.holds state other at_ || !server.holds state key now &&
        (decide (other = key) && server.keeps (now + ttlMs) at_))
  kept : ∀ expiresAt at_, at_ < expiresAt → server.keeps expiresAt at_ = true
  dropped : ∀ expiresAt at_, expiresAt < at_ → server.keeps expiresAt at_ = false

def SINGLE_USE_NAMESPACE : JsString := js "assaybank:single-use"

def singleUseKey (space key : JsString) : JsString := space ++ js ":" ++ key

def valkeyClaim {State : Type} (server : Server State) (space : JsString) (state : State)
    (call : ClaimCall) : ClaimOutcome × State :=
  let reply := server.set state (singleUseKey space call.key) (lifetime call.ttlMs) call.now
  (if reply.1 = none then .replayed else .claimed, reply.2)

section Valkey

variable {State : Type} (server : Server State) (space : JsString)

/-- Whether a use that was granted is still held. -/
def Server.lasts (call : ClaimCall) (at_ : EpochMillis) : Bool := server.keeps call.ends at_

theorem valkeyClaim_eq (documented : server.Documented) (state : State) (call : ClaimCall) :
    decide ((valkeyClaim server space state call).1 = .claimed) =
      !server.holds state (singleUseKey space call.key) call.now := by
  have replied := documented.answers state (singleUseKey space call.key) (lifetime call.ttlMs)
    call.now
  rw [Bool.eq_iff_iff, decide_eq_true_iff, Bool.not_eq_true', ← Bool.not_eq_true, ← replied]
  unfold valkeyClaim
  dsimp only
  split
  · rename_i absent
    exact iff_of_false nofun (not_not.mpr absent)
  · rename_i present
    exact iff_of_true rfl present

/-- The store over a server is one in which a use lasts as long as its key is kept. -/
def valkeyStore (documented : server.Documented) :
    Claims.Store singleUseTerms server.lasts State where
  start := server.start
  claim state call :=
    (decide ((valkeyClaim server space state call).1 = .claimed),
      (valkeyClaim server space state call).2)
  taken state key at_ := server.holds state (singleUseKey space key) at_
  valid _ := True
  valid_start := trivial
  valid_claim _ := trivial
  free_start _ _ := documented.empty _ _
  answers {state call} _ := valkeyClaim_eq server space documented state call
  holds {state call key at_} _ onward := by
    rw [valkeyClaim_eq server space documented]
    have prefixed : decide (singleUseKey space key = singleUseKey space call.key) =
        decide (key = call.key) :=
      decide_eq_decide.mpr ⟨List.append_cancel_left, congrArg (singleUseKey space)⟩
    rw [show decide (key = singleUseTerms.key call) = decide (key = call.key) from rfl, ← prefixed]
    exact documented.holds state (singleUseKey space call.key) (lifetime call.ttlMs) call.now
      (singleUseKey space key) at_ onward

end Valkey

/-! ### The store in memory -/

def SWEEP_INTERVAL_MS : Int := 10000

/-- The keys that were claimed, and when they were last swept. -/
abbrev MemoryStore := SweptMap JsString

def memoryClaim (store : MemoryStore) (call : ClaimCall) : ClaimOutcome × MemoryStore :=
  let answer := store.claim SWEEP_INTERVAL_MS call.key call.ends call.now
  (if answer.1 then .claimed else .replayed, answer.2)

/-- The store in memory is one in which a use lasts until its instant. -/
def memoryStore : Claims.Store singleUseTerms (fun call at_ => decide (at_ < call.ends))
    MemoryStore :=
  SweptMap.store singleUseTerms ClaimCall.ends SWEEP_INTERVAL_MS

private theorem lasting (call : ClaimCall) : call.now < call.ends :=
  Int.lt_add_of_pos_right _ (lt_of_lt_of_le Int.one_pos (le_max_left _ _))

private theorem interval_pos : 0 < SWEEP_INTERVAL_MS := by decide

/-! ### Every run -/

/-- No credential is claimed at the very instant at which an earlier use of it would end. -/
def OffEnds (calls : List ClaimCall) : Prop :=
  calls.Pairwise fun earlier later => earlier.key = later.key → later.now ≠ earlier.ends

section Runs

variable {State : Type} {server : Server State} (documented : server.Documented)
  (space : JsString) {calls : List ClaimCall} {call : ClaimCall}

private theorem replayed_memory :
    (memoryClaim (memoryStore.run calls).1 call).1 = .replayed ↔
      memoryStore.answer calls call = false := by
  show (if memoryStore.answer calls call then ClaimOutcome.claimed else .replayed) = .replayed ↔ _
  cases memoryStore.answer calls call <;> simp

private theorem replayed_valkey :
    (valkeyClaim server space ((valkeyStore server space documented).run calls).1 call).1 =
        .replayed ↔
      (valkeyStore server space documented).answer calls call = false := by
  show _ ↔ decide ((valkeyClaim server space
    ((valkeyStore server space documented).run calls).1 call).1 = .claimed) = false
  cases (valkeyClaim server space
    ((valkeyStore server space documented).run calls).1 call).1 <;> simp

include documented in
/-- Off the instants at which uses end, the server keeps what the store in memory keeps. -/
private theorem alike (offEnds : OffEnds calls) :
    Claims.Store.Alike singleUseTerms (fun call at_ => decide (at_ < call.ends)) server.lasts
      calls := by
  refine List.Pairwise.imp ?_ offEnds
  intro earlier later apart same
  show decide (later.now < earlier.ends) = server.keeps earlier.ends later.now
  rcases lt_or_gt_of_ne (apart same) with before | after
  · rw [decide_eq_true before, documented.kept _ _ before]
  · rw [decide_eq_false (not_lt.mpr after.le), documented.dropped _ _ after]

/-- After any run of claims, the store in memory refuses the next one exactly while a granted use of
its key lasts, and the server exactly while it keeps one, so that with neither two granted uses of a
key overlap. Where no claim falls on the very end of a use of its key, the two grant the same claims
and answer the next alike. What the store in memory then holds expired less than an interval ago, if
at all. -/
theorem singleUse_claims (ordered : Claims.Ordered singleUseTerms (calls ++ [call]))
    (epoch : ∀ other ∈ calls ++ [call], 0 ≤ other.now) :
    ((memoryClaim (memoryStore.run calls).1 call).1 = .replayed ↔
        ∃ prior ∈ memoryStore.granted calls, prior.key = call.key ∧ call.now < prior.ends) ∧
      ((valkeyClaim server space ((valkeyStore server space documented).run calls).1 call).1 =
          .replayed ↔
        ∃ prior ∈ (valkeyStore server space documented).granted calls,
          prior.key = call.key ∧ server.keeps prior.ends call.now = true) ∧
      ((memoryStore.granted calls).Pairwise fun earlier later =>
        earlier.key = later.key → earlier.ends ≤ later.now) ∧
      (((valkeyStore server space documented).granted calls).Pairwise fun earlier later =>
        earlier.key = later.key → earlier.ends ≤ later.now) ∧
      (OffEnds (calls ++ [call]) →
        memoryStore.granted calls = (valkeyStore server space documented).granted calls ∧
          (memoryClaim (memoryStore.run calls).1 call).1 =
            (valkeyClaim server space
              ((valkeyStore server space documented).run calls).1 call).1) ∧
      ∀ entry ∈ (memoryClaim (memoryStore.run calls).1 call).2.entries,
        call.now - SWEEP_INTERVAL_MS < entry.2 := by
  obtain ⟨before, _, across⟩ := List.pairwise_append.mp ordered
  have memory := Claims.Store.refused_iff memoryStore ordered
  have valkey := Claims.Store.refused_iff (valkeyStore server space documented) ordered
  refine ⟨?_, (replayed_valkey documented space).trans valkey, ?_, ?_, ?_, ?_⟩
  · rw [replayed_memory, memory]
    simp only [decide_eq_true_eq]
    rfl
  · refine (Claims.Store.granted_apart memoryStore before).imp fun apart same => ?_
    exact not_lt.mp (of_decide_eq_false (apart same))
  · refine (Claims.Store.granted_apart (valkeyStore server space documented) before).imp
      fun {earlier later} apart same => ?_
    by_contra lasts
    have dropped : server.keeps earlier.ends later.now = false := apart same
    rw [documented.kept _ _ (not_le.mp lasts)] at dropped
    cases dropped
  · intro offEnds
    have agree := alike documented offEnds
    refine ⟨Claims.Store.granted_eq memoryStore (valkeyStore server space documented) before
      (List.pairwise_append.mp agree).1, ?_⟩
    have same : (memoryClaim (memoryStore.run calls).1 call).1 = .replayed ↔
        (valkeyClaim server space
          ((valkeyStore server space documented).run calls).1 call).1 = .replayed := by
      rw [replayed_memory, replayed_valkey, Claims.Store.answers_eq memoryStore
        (valkeyStore server space documented) ordered agree]
    cases first : (memoryClaim (memoryStore.run calls).1 call).1 with
    | replayed => exact (same.mp first).symm
    | claimed =>
        cases second : (valkeyClaim server space
            ((valkeyStore server space documented).run calls).1 call).1 with
        | claimed => rfl
        | replayed =>
            rw [same.mpr second] at first
            cases first
  · have known := SweptMap.fresh_run interval_pos lasting before
      (fun other inside => epoch other (List.mem_append_left _ inside))
      (epoch call (List.mem_append_right _ List.mem_cons_self))
      (fun other inside => across other inside call List.mem_cons_self)
    have swept : SweptMap.Swept SWEEP_INTERVAL_MS
        ((memoryStore.run calls).1.claim SWEEP_INTERVAL_MS call.key call.ends call.now).2 call.now :=
      SweptMap.swept_claim interval_pos (memoryStore.valid_run calls) (lasting call) known.1 known.2
    intro entry inside
    exact (sub_lt_comm.mp swept.recent).trans (swept.fresh entry inside)

end Runs

/-! ### A server that drops a key when its instant is past -/

/-- A map from keys to the instants they expire at. -/
private def sampleServer : Server (JsString → Option EpochMillis) where
  start _ := none
  set state key ttlMs now :=
    if (state key).any fun expiresAt => now ≤ expiresAt then (none, state)
    else (some (js "OK"), Function.update state key (some (now + ttlMs)))
  holds state key at_ := (state key).any fun expiresAt => at_ ≤ expiresAt
  keeps expiresAt at_ := decide (at_ ≤ expiresAt)

private theorem sampleServer_documented : sampleServer.Documented where
  empty _ _ := rfl
  answers state key ttlMs now := by
    simp only [sampleServer]
    split
    · rename_i held
      exact iff_of_true rfl held
    · rename_i free
      exact iff_of_false nofun free
  holds state key ttlMs now other at_ onward := by
    simp only [sampleServer]
    cases held : (state key).any fun expiresAt => decide (now ≤ expiresAt) with
    | true => simp
    | false =>
        by_cases mine : other = key
        · subst mine
          have free : ((state other).any fun expiresAt => decide (at_ ≤ expiresAt)) = false := by
            cases found : state other with
            | none => rfl
            | some expiresAt =>
                rw [found] at held
                have ended : ¬now ≤ expiresAt := by simpa using held
                have past : ¬at_ ≤ expiresAt := fun lasts => ended (onward.trans lasts)
                simpa using past
          simp [free]
        · simp [mine]
  kept _ _ before := decide_eq_true (le_of_lt before)
  dropped _ _ after := decide_eq_false (not_le.mpr after)

/-- A ticket used twice within its minute. -/
private def twoUses : List ClaimCall := [⟨js "a", 60000, 1000⟩, ⟨js "a", 60000, 31000⟩]

/-- The second use is refused by both. The third is granted by both once the first has ended, and at
the very end of it by the store in memory alone. -/
theorem singleUse_claims_example :
    (memoryClaim (memoryStore.run twoUses).1 ⟨js "a", 60000, 61001⟩).1 =
        (valkeyClaim sampleServer SINGLE_USE_NAMESPACE
          ((valkeyStore sampleServer SINGLE_USE_NAMESPACE sampleServer_documented).run twoUses).1
          ⟨js "a", 60000, 61001⟩).1 ∧
      (memoryClaim (memoryStore.run twoUses).1 ⟨js "a", 60000, 61001⟩).1 = .claimed ∧
      (memoryClaim (memoryStore.run twoUses).1 ⟨js "a", 60000, 61000⟩).1 = .claimed ∧
      (valkeyClaim sampleServer SINGLE_USE_NAMESPACE
          ((valkeyStore sampleServer SINGLE_USE_NAMESPACE sampleServer_documented).run twoUses).1
          ⟨js "a", 60000, 61000⟩).1 = .replayed := by
  have ordered : Claims.Ordered singleUseTerms (twoUses ++ [⟨js "a", 60000, 61001⟩]) := by
    unfold Claims.Ordered
    decide
  have offEnds : OffEnds (twoUses ++ [⟨js "a", 60000, 61001⟩]) := by
    unfold OffEnds
    decide +kernel
  have alike := (singleUse_claims sampleServer_documented SINGLE_USE_NAMESPACE ordered
    (by decide)).2.2.2.2.1 offEnds
  exact ⟨alike.2, by decide +kernel, by decide +kernel, by decide +kernel⟩

end Assaybank.Credentials.SingleUse
