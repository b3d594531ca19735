import Assaybank.Sittings.Settled

/-!
Owns the sittings of an invitation over every run of the program.

Contract: whatever the interleaving, the attempts of an invitation stay within its `max_attempts`,
their sittings are numbered from 1 without a gap, each has one redemption row in the audit log, and
a redemption that is refused changes nothing (`redemptions_accounted`).
-/

namespace Assaybank.Sittings

open Assaybank.Runtime Assaybank.Library Assaybank.Contracts Assaybank.Domain
open Assaybank.Auth Assaybank.Db Assaybank.Api Assaybank.Credentials
open Assaybank.Library.ReadCommitted

/-! ### The account of a store -/

def isRedemption (row : AuditRow) : Bool := row.action == REDEMPTION_AUDIT_ACTION

/-- The redemption rows of an invitation, in the order of the log. -/
def redemptions (store : Store) (invitationId : JsString) : List AuditRow :=
  store.auditLog.filter fun row =>
    isRedemption row &&
      decide (row.after.lookup (js "invitation_id") = some (.inl invitationId))

/-- The sitting a redemption row records. -/
def sitting? (row : AuditRow) : Option Int :=
  match row.after.lookup (js "sitting") with
  | some (.inr sitting) => some sitting
  | _ => none

/-- The sittings 1 to `k`. -/
def sittingsTo (k : Nat) : List (Option Int) :=
  (List.range k).map fun n : Nat => some (n + 1 : Int)

/-- The account of a store: no invitation is over its allowance, the sittings of each are numbered
from 1, and the redemption rows are those of the attempts, one by one. -/
structure Counted (store : Store) : Prop where
  within : ∀ invitation ∈ store.invitations,
    (store.sittings invitation.id : Int) ≤ invitation.maxAttempts
  numbered : ∀ invitationId,
    (redemptions store invitationId).map sitting? = sittingsTo (store.sittings invitationId)
  recorded : (store.auditLog.filter isRedemption).map AuditRow.entityId =
    store.attempts.map fun attempt => some attempt.id

/-- An attempt that is committed has one redemption row. -/
theorem Counted.one_record {store : Store} (counted : Counted store) (legal : Legal store)
    {attempt : Attempt} (inside : attempt ∈ store.attempts) :
    (store.auditLog.filter fun row => isRedemption row && row.entityId == some attempt.id).length =
      1 := by
  have rows : ((store.auditLog.filter isRedemption).map AuditRow.entityId).count
      (some attempt.id) = 1 := by
    rw [counted.recorded]
    apply List.count_eq_one_of_mem
    · have distinct := legal.attemptIds.map (Option.some_injective JsString)
      rwa [List.map_map] at distinct
    · exact List.mem_map_of_mem inside
  rw [List.count, List.countP_map, List.countP_eq_length_filter, List.filter_filter] at rows
  rw [← rows]
  congr 1
  apply List.filter_congr
  intro row _
  exact Bool.and_comm _ _

/-! ### What keeps the account -/

section Keeping

variable {store : Store} {wrote : List Write}

/-- An invitation that a legal commit adds has no attempts yet. -/
private theorem sittings_of_new (legal : Legal store) (after : Legal (engine.view wrote store))
    {invitation : Invitation} (new : invitation ∈ wrote.filterMap Write.invitation?) :
    store.sittings invitation.id = 0 := by
  unfold Store.sittings
  rw [List.countP_eq_zero]
  intro attempt inside same
  have old := legal.attemptInvitations attempt inside invitation.id (beq_iff_eq.mp same)
  have distinct := after.invitationIds
  rw [view_invitations, List.map_append, List.nodup_append] at distinct
  exact distinct.2.2 _ old _ (List.mem_map_of_mem new) rfl

/-- A transaction that takes no sitting keeps the account. -/
private theorem counted_of_none (counted : Counted store) (legal : Legal store)
    (after : Legal (engine.view wrote store)) (attempts : ∀ write ∈ wrote, write.attempt? = none)
    (audits : ∀ write ∈ wrote, ∀ row, write.audit? = some row →
      row.action ≠ REDEMPTION_AUDIT_ACTION)
    (allowances : ∀ invitation ∈ wrote.filterMap Write.invitation?, 0 ≤ invitation.maxAttempts) :
    Counted (engine.view wrote store) := by
  have sameAttempts : (engine.view wrote store).attempts = store.attempts := by
    rw [view_attempts, List.filterMap_eq_nil_iff.mpr attempts, List.append_nil]
  have sameSittings (id : JsString) :
      (engine.view wrote store).sittings id = store.sittings id := by
    unfold Store.sittings
    rw [sameAttempts]
  have others : ∀ row ∈ wrote.filterMap Write.audit?, ¬ isRedemption row = true := by
    intro row inside redemption
    obtain ⟨write, mine, found⟩ := List.mem_filterMap.mp inside
    exact audits write mine row found (beq_iff_eq.mp redemption)
  refine ⟨?_, ?_, ?_⟩
  · intro invitation inside
    rw [sameSittings]
    rw [view_invitations] at inside
    rcases List.mem_append.mp inside with old | new
    · exact counted.within invitation old
    · rw [sittings_of_new legal after new]
      exact allowances invitation new
  · intro invitationId
    rw [sameSittings, ← counted.numbered, redemptions, view_auditLog, List.filter_append]
    have none : (wrote.filterMap Write.audit?).filter (fun row => isRedemption row &&
        decide (row.after.lookup (js "invitation_id") = some (.inl invitationId))) = [] := by
      rw [List.filter_eq_nil_iff]
      intro row inside both
      exact others row inside (Bool.and_eq_true_iff.mp both).1
    rw [none, List.append_nil]
    rfl
  · rw [sameAttempts, ← counted.recorded, view_auditLog, List.filter_append,
      List.filter_eq_nil_iff.mpr others, List.append_nil]

private theorem sittingsTo_succ (k : Nat) :
    sittingsTo (k + 1) = sittingsTo k ++ [some (k + 1 : Int)] := by
  unfold sittingsTo
  rw [List.range_succ, List.map_append, List.map_singleton]

/-- A sitting that was counted under the lock keeps the account. -/
private theorem counted_of_sits {request : RedemptionRequest} {redemption : Redemption}
    (counted : Counted store) (legal : Legal store)
    (sits : Sits request redemption wrote store) : Counted (engine.view wrote store) := by
  obtain ⟨invitation, inside, attempt, maxAttempts, attemptId, invitationId, most, room, sitting,
    rfl⟩ := sits
  let row := redemptionRow redemption.attemptId invitation.id redemption.sitting maxAttempts
    request.ip request.now
  let after : Store :=
    { store with
      attempts := store.attempts ++ [attempt]
      auditLog := store.auditLog ++ [row] }
  show Counted after
  have mine : after.sittings invitation.id = store.sittings invitation.id + 1 := by
    unfold Store.sittings
    rw [List.countP_append, List.countP_singleton, if_pos (by rw [invitationId]; simp)]
  have other {id : JsString} (different : id ≠ invitation.id) :
      after.sittings id = store.sittings id := by
    unfold Store.sittings
    rw [List.countP_append, List.countP_singleton,
      if_neg (by rw [invitationId]; simpa using Ne.symm different)]
    rfl
  refine ⟨?_, ?_, ?_⟩
  · intro found member
    by_cases same : found.id = invitation.id
    · have alike : found = invitation :=
        List.inj_on_of_nodup_map legal.invitationIds member inside same
      rw [alike, mine, ← most]
      exact_mod_cast room
    · rw [other same]
      exact counted.within found member
  · intro id
    have former : after.auditLog = store.auditLog ++ [row] := rfl
    by_cases same : id = invitation.id
    · subst same
      rw [mine, sittingsTo_succ, ← counted.numbered, redemptions, former, List.filter_append,
        List.map_append]
      congr 1
      have kept : [row].filter (fun row => isRedemption row &&
          decide (row.after.lookup (js "invitation_id") = some (.inl invitation.id))) = [row] := by
        rw [List.filter_eq_self]
        intro found member
        rw [List.mem_singleton.mp member]
        exact Bool.and_eq_true_iff.mpr ⟨beq_self_eq_true _, decide_eq_true rfl⟩
      rw [kept]
      show [some (redemption.sitting : Int)] = _
      rw [sitting]
      rfl
    · rw [other same, ← counted.numbered, redemptions, former, List.filter_append]
      have dropped : [row].filter (fun row => isRedemption row &&
          decide (row.after.lookup (js "invitation_id") = some (.inl id))) = [] := by
        rw [List.filter_eq_nil_iff]
        intro found member both
        rw [List.mem_singleton.mp member] at both
        have shared : some (Sum.inl invitation.id : JsString ⊕ Int) = some (.inl id) :=
          of_decide_eq_true (Bool.and_eq_true_iff.mp both).2
        cases shared
        exact same rfl
      rw [dropped, List.append_nil]
      rfl
  · show ((store.auditLog ++ [row]).filter isRedemption).map AuditRow.entityId = _
    rw [List.filter_append, List.map_append, counted.recorded]
    show _ = (store.attempts ++ [attempt]).map _
    rw [List.map_append]
    congr 1
    show [some redemption.attemptId] = [some attempt.id]
    rw [attemptId]

end Keeping

/-! ### Every run -/

private theorem allowance {request : CreateInvitationsRequest} : 0 ≤ request.maxAttempts := by
  unfold CreateInvitationsRequest.maxAttempts
  cases chosen : request.body.maxAttempts with
  | none => decide
  | some n =>
      have least := (request.body.sittings n (by rw [chosen]; rfl)).1
      exact le_trans (by decide) least

private theorem accounting (services : Services) :
    Rules engine (program services) (fun _ => True) Legal (fun _ => Counted) Settles
      fun _ _ _ => True where
  starts _ _ := program_sound services _ _
  commits := by
    intro session a past store _ legal counted settled _ allowed
    have after : Legal (engine.view session.wrote store) := of_decide_eq_true allowed
    refine ⟨after, ?_⟩
    rcases settles_cases settled with quiet | invited | ⟨_, _, same⟩ | ⟨_, _, _, _, sits⟩
    · apply counted_of_none counted legal after (fun write mine => (quiet write mine).attempt)
        fun write mine => (quiet write mine).audit
      rw [List.filterMap_eq_nil_iff.mpr fun write mine => (quiet write mine).invitation]
      exact nofun
    · obtain ⟨_, _, _, _, _, _, _, _, filing⟩ := invited
      apply counted_of_none counted legal after
        (fun write mine => (filing.ordinary write mine).attempt)
        fun write mine => (filing.ordinary write mine).audit
      intro invitation new
      obtain ⟨entry, _, issued⟩ := filing.entry new
      rw [issued.maxAttempts]
      exact allowance
    · rw [same]
      exact counted
    · exact counted_of_sits counted legal sits

/-- Nothing has been redeemed of a store without attempts. -/
theorem counted_of_fresh {store : Store} (attempts : store.attempts = [])
    (audits : store.auditLog.filter isRedemption = [])
    (allowances : ∀ invitation ∈ store.invitations, 0 ≤ invitation.maxAttempts) :
    Counted store where
  within := by
    intro invitation inside
    rw [Store.sittings, attempts]
    exact allowances invitation inside
  numbered := by
    intro invitationId
    have none : redemptions store invitationId = [] := by
      rw [redemptions, List.filter_eq_nil_iff]
      intro row inside both
      exact List.filter_eq_nil_iff.mp audits row inside (Bool.and_eq_true_iff.mp both).1
    rw [none, Store.sittings, attempts]
    rfl
  recorded := by
    rw [audits, attempts]
    rfl

/-- In every run the attempts of an invitation stay within its `max_attempts`, their sittings are 1
to their number, each has one redemption row, and an event that answers a refusal, or answers
nothing, changes no row of the store. -/
theorem redemptions_accounted (services : Services) {store : Store} (legal : Legal store)
    (counted : Counted store) (events : List Event) :
    (∀ invitation ∈ (reach services store events).store.invitations,
      ((reach services store events).store.sittings invitation.id : Int) ≤ invitation.maxAttempts ∧
      (redemptions (reach services store events).store invitation.id).map sitting? =
        sittingsTo ((reach services store events).store.sittings invitation.id) ∧
      ∀ attempt ∈ (reach services store events).store.attempts,
        attempt.invitationId = some invitation.id →
          ((reach services store events).store.auditLog.filter fun row =>
            isRedemption row && row.entityId == some attempt.id).length = 1) ∧
      ∀ event : Event,
        (∀ session refusal, (reach services store events).commits engine event =
            some (session, .redemption (.error refusal)) →
          (reach services store (events ++ [event])).store =
            (reach services store events).store) ∧
        ((reach services store events).commits engine event = none →
          (reach services store (events ++ [event])).store =
            (reach services store events).store) := by
  have running := (running_idle engine legal counted).run (accounting services) events
    (fun _ => trivial) (each_of_forall (fun _ _ _ => trivial) events)
  refine ⟨?_, ?_⟩
  · intro invitation inside
    exact ⟨running.past.within invitation inside, running.past.numbered invitation.id,
      fun attempt taken _ => running.past.one_record running.holds taken⟩
  · intro event
    rw [reach_append, store_step]
    refine ⟨?_, ?_⟩
    · intro session refusal commit
      have settled := running.settled commit
      rw [commit]
      rcases made : session.request with staff | staff | request | request
      all_goals rw [made] at settled
      · exact settled.elim
      · exact settled.elim
      · exact settled.elim
      · exact settled
    · intro silent
      rw [silent]
      rfl

/-! ### Two requests for one sitting -/

/-- An organisation with one invitation, for one sitting. -/
def invited : Store where
  assessments := [⟨js "a", some (js "r"), js "Backend", 3600, true, .published, 1, []⟩]
  candidates := [⟨js "c", ⟨js "ada@example.org", by decide⟩, none⟩]
  jobOpenings := [⟨js "o", js "r", js "Backend", 0⟩]
  applications := [⟨js "p", js "c", js "o"⟩]
  invitations := [⟨js "i", some (js "p"), js "a", js "v1$", none, 1000, 1, none, js "u"⟩]
  attempts := []
  auditLog := []

def sampleServices : Services := ⟨blankMac, js "pepper", js "https://example.org", js "org", js "k"⟩

/-- Two requests at once: both have found the invitation when the first takes its lock. -/
def race : List Event :=
  [.start 0 (.redeem ⟨js "t", none, 0, js "x"⟩), .start 1 (.redeem ⟨js "t", none, 0, js "y"⟩)] ++
    [0, 1, 0, 1, 0, 1, 0, 0, 0, 0, 1, 1, 1, 1].map .advance

theorem redemptions_accounted_example :
    (reach sampleServices invited race).store.attempts.length = 1 ∧
      ∀ invitation ∈ (reach sampleServices invited race).store.invitations,
        ((reach sampleServices invited race).store.sittings invitation.id : Int) ≤
          invitation.maxAttempts := by
  have legal : Legal invited := by decide
  have counted : Counted invited := counted_of_fresh rfl rfl (by decide)
  refine ⟨by decide +kernel, ?_⟩
  intro invitation inside
  exact ((redemptions_accounted sampleServices legal counted race).1 invitation inside).1

end Assaybank.Sittings
