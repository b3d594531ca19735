import Assaybank.Sittings.Settled

/-!
Owns whether an address may hold two live invitations to one assessment.

Contract: it may not, in a run in which no invitation comes to an address between the look that
finds the address free and the commit that invites it (`one_live_invitation`). Two requests that
look before either commits both invite the address (`two_live_invitations`): nothing that they lock,
and no constraint of the tables, stands between them.
-/

namespace Assaybank.Sittings

open Assaybank.Runtime Assaybank.Library Assaybank.Contracts Assaybank.Domain
open Assaybank.Auth Assaybank.Db Assaybank.Api Assaybank.Credentials
open Assaybank.Library.ReadCommitted

/-! ### One live invitation for each address -/

/-- No two live invitations to one assessment reach the same address. -/
def OneLive (now : EpochMillis) (store : Store) : Prop :=
  ∀ first ∈ store.invitations, ∀ second ∈ store.invitations,
    store.Live now first → store.Live now second →
    first.assessmentId = second.assessmentId →
      ∀ email ∈ store.invited first, email ∈ store.invited second → first = second

instance (now : EpochMillis) (store : Store) : Decidable (OneLive now store) :=
  inferInstanceAs (Decidable (∀ first ∈ store.invitations, ∀ second ∈ store.invitations, _))

/-- A request that looks at an address and finds it free commits before another invitation comes to
the address and lives until `now`. -/
def Undisturbed (now : EpochMillis) (session : Session) (_ : Answer) (store : Store) : Prop :=
  match session.request with
  | .createInvitations request =>
      now < request.expiresAt → ∀ read ∈ session.seen[1]?, ∀ email ∈ request.body.emails,
        email.key ∉ read.liveInvitedEmails request.assessmentId request.staff.issuedAt →
          ∀ invitation ∈ store.invitations, invitation.assessmentId = request.assessmentId →
            store.Live now invitation → email.key ∈ store.invited invitation →
              invitation ∈ read.invitations
  | _ => True

instance (now : EpochMillis) (session : Session) (a : Answer) (store : Store) :
    Decidable (Undisturbed now session a store) :=
  match session with
  | ⟨.createAssessment _ _ _ _, _, _, _⟩ => .isTrue trivial
  | ⟨.publish _ _ _, _, _, _⟩ => .isTrue trivial
  | ⟨.createInvitations _, _, _, _⟩ => by
      dsimp only [Undisturbed]
      infer_instance
  | ⟨.redeem _, _, _, _⟩ => .isTrue trivial

theorem mem_liveInvitedEmails {store : Store} {assessmentId email : JsString} {now : EpochMillis} :
    email ∈ store.liveInvitedEmails assessmentId now ↔
      ∃ invitation ∈ store.invitations, invitation.assessmentId = assessmentId ∧
        store.Live now invitation ∧ email ∈ store.invited invitation := by
  simp only [Store.liveInvitedEmails, List.mem_flatMap, List.mem_filter, Bool.and_eq_true,
    beq_iff_eq, decide_eq_true_eq, and_assoc]

/-! ### What keeps it -/

section Keeping

variable {now : EpochMillis} {store : Store} {wrote : List Write}

/-- A transaction that invites nobody keeps it. -/
private theorem oneLive_of_none (unique : OneLive now store) (legal : Legal store)
    (after : Legal (engine.view wrote store))
    (none : (engine.view wrote store).invitations = store.invitations) :
    OneLive now (engine.view wrote store) := by
  have grows := grows_view wrote store
  intro first inside second member live alsoLive same email reached alsoReached
  rw [none] at inside member
  exact unique first inside second member (grows.live (le_refl _) live)
    (grows.live (le_refl _) alsoLive) same email (grows.invited legal after inside reached)
    (grows.invited legal after member alsoReached)

variable {request : CreateInvitationsRequest} {jobRoleId title : JsString} {read : Store}
  {taken : List JsString} {response : CreateInvitationsResponse} {seen : List Store}

/-- An invitation that a request issues reaches the address of its entry. -/
private theorem Issued.email {visible : Store} {row : Invitation} {entry : IssuedInvitation}
    (issued : Issued request jobRoleId title seen visible row entry) (legal : Legal visible)
    {email : JsString} (reached : email ∈ visible.invited row) : email = entry.email.key := by
  obtain ⟨applicationId, applied, application, inside, id, whose, _⟩ := issued.applied
  obtain ⟨candidate, member, candidateId, key⟩ := issued.reaches
  rw [← key]
  exact eq_of_invited legal inside (applied.trans (congrArg some id.symm)) member
    (candidateId.trans whose.symm) reached

/-- Two invitations of one request that reach the same address are one. -/
private theorem eq_of_issued
    (filing : Filing request jobRoleId title read taken response seen wrote store)
    (after : Legal (engine.view wrote store)) {first second : Invitation}
    (inside : first ∈ wrote.filterMap Write.invitation?)
    (member : second ∈ wrote.filterMap Write.invitation?) {email : JsString}
    (reached : email ∈ (engine.view wrote store).invited first)
    (alsoReached : email ∈ (engine.view wrote store).invited second) : first = second := by
  obtain ⟨lengths, each⟩ := List.forall₂_iff_get.mp filing.issued
  obtain ⟨⟨n, bound⟩, rfl⟩ := List.get_of_mem inside
  obtain ⟨⟨m, alsoBound⟩, rfl⟩ := List.get_of_mem member
  have mine := (each n bound (lengths ▸ bound)).email after reached
  have its := (each m alsoBound (lengths ▸ alsoBound)).email after alsoReached
  have keyed (k : Nat) (below : k < (wrote.filterMap Write.invitation?).length) :
      k < (response.issued.map fun entry => entry.email.key).length := by
    rw [List.length_map, ← lengths]
    exact below
  have alike : (⟨n, keyed n bound⟩ : Fin (response.issued.map fun entry => entry.email.key).length) =
      ⟨m, keyed m alsoBound⟩ := by
    apply List.nodup_iff_injective_get.mp filing.once
    rw [List.get_eq_getElem, List.get_eq_getElem, List.getElem_map, List.getElem_map]
    exact mine.symm.trans its
  have same : n = m := congrArg Fin.val alike
  subst same
  rfl

/-- An invitation that a request issues is the only live one of its address: another would have
been live when the request looked. -/
private theorem no_former
    (filing : Filing request jobRoleId title read taken response seen wrote store)
    (legal : Legal store) (after : Legal (engine.view wrote store))
    (clock : request.staff.issuedAt ≤ now)
    (undisturbed : now < request.expiresAt → ∀ email ∈ request.body.emails,
      email.key ∉ read.liveInvitedEmails request.assessmentId request.staff.issuedAt →
        ∀ invitation ∈ store.invitations, invitation.assessmentId = request.assessmentId →
          store.Live now invitation → email.key ∈ store.invited invitation →
            invitation ∈ read.invitations)
    {former issued : Invitation} (inside : former ∈ store.invitations)
    (member : issued ∈ wrote.filterMap Write.invitation?)
    (live : (engine.view wrote store).Live now former)
    (alsoLive : (engine.view wrote store).Live now issued)
    (same : former.assessmentId = issued.assessmentId) {email : JsString}
    (reached : email ∈ (engine.view wrote store).invited former)
    (alsoReached : email ∈ (engine.view wrote store).invited issued) : False := by
  have grows := grows_view wrote store
  obtain ⟨entry, listed, facts⟩ := filing.entry member
  obtain ⟨_, free⟩ := filing.fresh entry listed
  have stood := grows.live (le_refl now) live
  have reaches : email ∈ store.invited former := grows.invited legal after inside reached
  have key := facts.email after alsoReached
  subst key
  have assessment := same.trans facts.assessment
  have looked := undisturbed (facts.expiresAt ▸ alsoLive.1) entry.email (filing.asked entry listed)
    free former inside assessment stood reaches
  apply free
  apply mem_liveInvitedEmails.mpr
  exact ⟨former, looked, assessment, filing.grew.live clock stood,
    filing.grew.invited filing.legal legal looked reaches⟩

/-- A request that is not disturbed keeps it. -/
private theorem oneLive_of_filing
    (filing : Filing request jobRoleId title read taken response seen wrote store)
    (unique : OneLive now store) (legal : Legal store) (after : Legal (engine.view wrote store))
    (clock : request.staff.issuedAt ≤ now)
    (undisturbed : now < request.expiresAt → ∀ email ∈ request.body.emails,
      email.key ∉ read.liveInvitedEmails request.assessmentId request.staff.issuedAt →
        ∀ invitation ∈ store.invitations, invitation.assessmentId = request.assessmentId →
          store.Live now invitation → email.key ∈ store.invited invitation →
            invitation ∈ read.invitations) :
    OneLive now (engine.view wrote store) := by
  have grows := grows_view wrote store
  intro first inside second member live alsoLive same email reached alsoReached
  rw [view_invitations] at inside member
  rcases List.mem_append.mp inside with old | new
  · rcases List.mem_append.mp member with alsoOld | alsoNew
    · exact unique first old second alsoOld (grows.live (le_refl _) live)
        (grows.live (le_refl _) alsoLive) same email (grows.invited legal after old reached)
        (grows.invited legal after alsoOld alsoReached)
    · exact (no_former filing legal after clock undisturbed old alsoNew live alsoLive same reached
        alsoReached).elim
  · rcases List.mem_append.mp member with alsoOld | alsoNew
    · exact (no_former filing legal after clock undisturbed alsoOld new alsoLive live same.symm
        alsoReached reached).elim
    · exact eq_of_issued filing after new alsoNew reached alsoReached

end Keeping

/-! ### Every run -/

/-- A request made by `now`, by the clock of the server. -/
def MadeBy (now : EpochMillis) : Request → Prop
  | .createInvitations request => request.staff.issuedAt ≤ now
  | _ => True

private theorem unique_live (services : Services) (now : EpochMillis) :
    Rules engine (program services) (MadeBy now) Legal (fun _ => OneLive now) Settles
      (Undisturbed now) where
  starts _ _ := program_sound services _ _
  commits := by
    intro session a past store clock legal unique settled undisturbed allowed
    have after : Legal (engine.view session.wrote store) := of_decide_eq_true allowed
    refine ⟨after, ?_⟩
    rcases invitations_of_settles settled with none | ⟨request, response, made, _, filed⟩
    · exact oneLive_of_none unique legal after none
    · obtain ⟨_, _, read, _, filing⟩ := filed
      unfold Undisturbed at undisturbed
      rw [made] at clock undisturbed
      exact oneLive_of_filing filing unique legal after clock fun unexpired =>
        undisturbed unexpired read filing.looked

/-- In a run whose invitation requests are not disturbed, no two live invitations to one assessment
reach the same address, at any point of the run. -/
theorem one_live_invitation (services : Services) {now : EpochMillis} {store : Store}
    (legal : Legal store) (unique : OneLive now store) (events : List Event)
    (clock : ∀ {id request}, .start id request ∈ events → MadeBy now request)
    (each : ReadCommitted.State.Each engine (program services) (Undisturbed now)
      (ReadCommitted.State.idle store) events) :
    ∀ sofar, sofar <+: events → OneLive now (reach services store sofar).store := by
  intro sofar initial
  obtain ⟨rest, rfl⟩ := initial
  have running := (running_idle engine legal unique).run (unique_live services now)
    sofar (fun started => clock (List.mem_append_left _ started)) ((each_append sofar rest).mp each).1
  exact running.past

/-! ### Two requests for one address -/

/-- An organisation with one assessment, to which nobody is invited. -/
def uninvited : Store :=
  { Store.empty with
    assessments := [⟨js "a", some (js "r"), js "Backend", 3600, true, .published, 1, []⟩] }

private theorem ada_ascii : isAsciiText (js "ada@example.org") = true := by decide

/-- Two requests for the same address, in two spellings. -/
def inviteBoth : List Event :=
  [.start 0 (.createInvitations
      (inviteOne (js "a") (js "1") ⟨js "ada@example.org", ada_ascii⟩ (by decide))),
    .start 1 (.createInvitations
      (inviteOne (js "a") (js "2") ⟨js "Ada@example.org", by decide⟩ (by decide)))]

private theorem inviteBoth_clock {steps : List Nat} {id : Nat} {request : Request}
    (started : .start id request ∈ inviteBoth ++ steps.map ReadCommitted.Event.advance) : MadeBy 1000 request := by
  have early : (0 : EpochMillis) ≤ 1000 := by decide
  rcases List.mem_append.mp started with first | later
  · rcases List.mem_pair.mp first with same | same <;> cases same <;> exact early
  · obtain ⟨n, _, same⟩ := List.mem_map.mp later
    cases same

/-- The second request looks once the first has committed, and skips the address. -/
theorem one_live_invitation_example :
    let events := inviteBoth ++ (List.replicate 8 0 ++ List.replicate 4 1).map .advance
    (reach digitServices uninvited events).answered.length = 2 ∧
      OneLive 1000 (reach digitServices uninvited events).store := by
  intro events
  refine ⟨by decide +kernel, ?_⟩
  exact one_live_invitation digitServices (by decide) (by decide) events inviteBoth_clock
    (by decide +kernel) events (List.prefix_refl _)

/-- Both requests look before either commits, and both invite the address. -/
theorem two_live_invitations :
    ¬ ∀ (services : Services) (store : Store) (events : List Event) (now : EpochMillis),
      Legal store → OneLive now store →
      (∀ id request, ReadCommitted.Event.start id request ∈ events → MadeBy now request) →
        OneLive now (reach services store events).store := by
  intro always
  let events := inviteBoth ++ ([0, 0, 1, 1] ++ List.replicate 6 0 ++ List.replicate 7 1).map .advance
  have unique := always digitServices uninvited events 1000 (by decide) (by decide)
    fun _ _ => inviteBoth_clock
  revert unique
  decide +kernel

end Assaybank.Sittings
