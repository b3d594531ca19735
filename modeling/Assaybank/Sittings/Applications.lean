import Assaybank.Sittings.Settled

/-!
Owns whose application an invitation is filed under, and for which role.

Contract: the application of every invitation is one of the candidate whose address was invited, in
every run; its opening is one of the role of the assessment as long as the name of the assessment
finds no opening of another role (`invitations_filed`). An opening is found by its title alone, so
two assessments of one name and two roles share one (`invitation_of_another_role`).
-/

namespace Assaybank.Sittings

open Assaybank.Runtime Assaybank.Library Assaybank.Contracts Assaybank.Domain
open Assaybank.Auth Assaybank.Db Assaybank.Api Assaybank.Credentials
open Assaybank.Library.ReadCommitted

/-! ### Where an invitation is filed -/

/-- A request was answered with the invitation, for an address that it named, and the application of
the invitation is one of the candidate of that address. -/
def Addressed (answered : List (Request × Answer)) (store : Store) (invitation : Invitation) :
    Prop :=
  ∃ request response, (Request.createInvitations request, Answer.invitations response) ∈ answered ∧
    request.assessmentId = invitation.assessmentId ∧
    ∃ entry ∈ response.issued, entry.id = invitation.id ∧ entry.email ∈ request.body.emails ∧
      ∃ application ∈ store.applications, invitation.applicationId = some application.id ∧
        ∃ candidate ∈ store.candidates, candidate.id = application.candidateId ∧
          candidate.email.key = entry.email.key

/-- The opening of the invitation's application is one of the role of its assessment. -/
def FiledByRole (store : Store) (invitation : Invitation) : Prop :=
  ∃ application ∈ store.applications, invitation.applicationId = some application.id ∧
    ∃ opening ∈ store.jobOpenings, opening.id = application.jobOpeningId ∧
      ∃ assessment ∈ store.assessments, assessment.id = invitation.assessmentId ∧
        assessment.jobRoleId = some opening.jobRoleId

instance (store : Store) (invitation : Invitation) : Decidable (FiledByRole store invitation) :=
  inferInstanceAs (Decidable (∃ application ∈ store.applications, _))

/-- When a request has an address to invite, whatever opening the name of its assessment finds is one
of the role of the assessment. -/
def RightlyTitled (session : Session) (_ : Answer) (store : Store) : Prop :=
  match session.request with
  | .createInvitations request =>
      (∀ looked ∈ session.seen[1]?, ∃ email ∈ request.body.emails,
        email.key ∉ looked.liveInvitedEmails request.assessmentId request.staff.issuedAt) →
      ∀ assessment ∈ store.assessments, assessment.id = request.assessmentId →
        ∀ read ∈ session.seen, ∀ opening ∈ read.openingTitled assessment.name,
          assessment.jobRoleId = some opening.jobRoleId
  | _ => True

instance (session : Session) (a : Answer) (store : Store) :
    Decidable (RightlyTitled session a store) :=
  match session with
  | ⟨.createAssessment _ _ _ _, _, _, _⟩ => .isTrue trivial
  | ⟨.publish _ _ _, _, _, _⟩ => .isTrue trivial
  | ⟨.createInvitations _, _, _, _⟩ => by
      dsimp only [RightlyTitled]
      infer_instance
  | ⟨.redeem _, _, _, _⟩ => .isTrue trivial

/-! ### What keeps it -/

section Keeping

variable {before after : Store} {invitation : Invitation}

/-- An invitation stays filed where it is, while the store grows. -/
private theorem FiledByRole.mono (filed : FiledByRole before invitation)
    (grows : Grows before after) : FiledByRole after invitation := by
  obtain ⟨application, inside, applied, opening, member, opened, assessment, between, id, role⟩ :=
    filed
  obtain ⟨later, further, sameId, sameRole, _⟩ := grows.assessments assessment between
  exact ⟨application, grows.applications _ inside, applied, opening, grows.jobOpenings _ member,
    opened, later, further, sameId.trans id, sameRole.trans role⟩

private theorem Addressed.mono {answered more : List (Request × Answer)}
    (addressed : Addressed answered before invitation) (grows : Grows before after) :
    Addressed (answered ++ more) after invitation := by
  obtain ⟨request, response, given, assessment, entry, listed, id, asked, application, inside,
    applied, candidate, member, whose, key⟩ := addressed
  obtain ⟨later, further, sameId, sameEmail⟩ := grows.candidates candidate member
  exact ⟨request, response, List.mem_append_left _ given, assessment, entry, listed, id, asked,
    application, grows.applications _ inside, applied, later, further, sameId.trans whose,
    (congrArg Email.key sameEmail).trans key⟩

variable {request : CreateInvitationsRequest} {jobRoleId title : JsString} {read : Store}
  {taken : List JsString} {response : CreateInvitationsResponse} {seen : List Store}
  {wrote : List Write} {store : Store}

/-- An invitation that a request issues is for a candidate of its entry's address. -/
private theorem addressed_of_filing
    (filing : Filing request jobRoleId title read taken response seen wrote store)
    (inside : invitation ∈ wrote.filterMap Write.invitation?)
    (past : List (Request × Answer)) :
    Addressed (past ++ [(.createInvitations request, .invitations response)])
      (engine.view wrote store) invitation := by
  obtain ⟨entry, listed, issued⟩ := filing.entry inside
  obtain ⟨candidate, member, candidateId, key⟩ := issued.reaches
  obtain ⟨applicationId, applied, application, between, id, whose, _⟩ := issued.applied
  exact ⟨request, response, List.mem_append_right _ (List.mem_singleton_self _),
    issued.assessment.symm, entry, listed, issued.id.symm, filing.asked entry listed, application,
    between, applied.trans (congrArg some id.symm), candidate, member,
    candidateId.trans whose.symm, key⟩

/-- An invitation that a request issues is filed under the role, unless the title found another. -/
private theorem filedByRole_of_filing
    (filing : Filing request jobRoleId title read taken response seen wrote store)
    (titled : (∃ email ∈ request.body.emails,
        email.key ∉ read.liveInvitedEmails request.assessmentId request.staff.issuedAt) →
      ∀ assessment ∈ store.assessments, assessment.id = request.assessmentId →
        ∀ read ∈ seen, ∀ opening ∈ read.openingTitled assessment.name,
          assessment.jobRoleId = some opening.jobRoleId)
    (inside : invitation ∈ wrote.filterMap Write.invitation?) :
    FiledByRole (engine.view wrote store) invitation := by
  obtain ⟨entry, listed, issued⟩ := filing.entry inside
  obtain ⟨_, free⟩ := filing.fresh entry listed
  obtain ⟨applicationId, applied, application, between, id, _, opening, member, opened, role⟩ :=
    issued.applied
  obtain ⟨assessment, found, assessmentId, assessmentRole, name⟩ := filing.assessment
  obtain ⟨later, further, sameId, sameRole, _⟩ :=
    (grows_view wrote store).assessments assessment found
  refine ⟨application, between, applied.trans (congrArg some id.symm), opening, member, opened,
    later, further, (sameId.trans assessmentId).trans issued.assessment.symm, ?_⟩
  rw [sameRole, assessmentRole]
  rcases role with same | ⟨early, looked, finds⟩
  · rw [same]
  · rw [← assessmentRole]
    rw [← name] at finds
    exact titled ⟨entry.email, filing.asked entry listed, free⟩ assessment found assessmentId early
      looked opening finds

end Keeping

/-! ### Every run -/

private theorem addressing (services : Services) :
    Rules engine (program services) (fun _ => True) Legal
      (fun past store => ∀ invitation ∈ store.invitations, Addressed past store invitation) Settles
      fun _ _ _ => True where
  starts _ _ := program_sound services _ _
  commits := by
    intro session a past store _ _ addressed settled _ allowed
    refine ⟨of_decide_eq_true allowed, ?_⟩
    have grows := grows_view session.wrote store
    intro invitation inside
    rcases invitations_of_settles settled with none | ⟨request, response, made, answer, filed⟩
    · rw [none] at inside
      exact (addressed invitation inside).mono grows
    · obtain ⟨_, _, _, _, filing⟩ := filed
      rw [view_invitations] at inside
      rcases List.mem_append.mp inside with old | new
      · exact (addressed invitation old).mono grows
      · rw [made, answer]
        exact addressed_of_filing filing new past

private theorem filing_by_role (services : Services) :
    Rules engine (program services) (fun _ => True) Legal
      (fun _ store => ∀ invitation ∈ store.invitations, FiledByRole store invitation) Settles
      RightlyTitled where
  starts _ _ := program_sound services _ _
  commits := by
    intro session a past store _ _ filedBefore settled titled allowed
    refine ⟨of_decide_eq_true allowed, ?_⟩
    have grows := grows_view session.wrote store
    intro invitation inside
    rcases invitations_of_settles settled with none | ⟨request, response, made, _, filed⟩
    · rw [none] at inside
      exact (filedBefore invitation inside).mono grows
    · obtain ⟨_, _, read, _, filing⟩ := filed
      rw [view_invitations] at inside
      rcases List.mem_append.mp inside with old | new
      · exact (filedBefore invitation old).mono grows
      · unfold RightlyTitled at titled
        rw [made] at titled
        apply filedByRole_of_filing filing ?_ new
        intro free
        apply titled
        intro looked same
        cases filing.looked.symm.trans same
        exact free

/-- In every run that starts without invitations, each invitation is for a candidate of the address
it was issued for, and, where every request is rightly titled, it is filed under the role of its
assessment. -/
theorem invitations_filed (services : Services) {store : Store} (legal : Legal store)
    (uninvited : store.invitations = []) (events : List Event) :
    (∀ invitation ∈ (reach services store events).store.invitations,
      Addressed (reach services store events).answered (reach services store events).store
        invitation) ∧
      (ReadCommitted.State.Each engine (program services) RightlyTitled
          (ReadCommitted.State.idle store) events →
        ∀ sofar, sofar <+: events →
          ∀ invitation ∈ (reach services store sofar).store.invitations,
            FiledByRole (reach services store sofar).store invitation) := by
  have none {holds : Invitation → Prop} : ∀ invitation ∈ store.invitations, holds invitation := by
    rw [uninvited]
    exact nofun
  refine ⟨?_, ?_⟩
  · have running := (running_idle engine legal none).run (addressing services) events
      (fun _ => trivial) (each_of_forall (fun _ _ _ => trivial) events)
    exact running.past
  · intro each sofar initial
    obtain ⟨rest, rfl⟩ := initial
    have running := (running_idle engine legal none).run (filing_by_role services) sofar
      (fun _ => trivial) ((each_append sofar rest).mp each).1
    exact running.past

/-! ### Two assessments of one name -/

/-- Statements of one transaction after another, each until it has committed. -/
def oneByOne (requests : List Request) : List Event :=
  requests.zipIdx.flatMap fun (request, id) => .start id request :: List.replicate 9 (.advance id)

/-- An assessment of a role, with one rule, created and published, and one address invited to it. -/
def inviteTo (assessmentId jobRoleId : JsString) (email : Email) (short : email.text.length ≤ 320) :
    List Request :=
  let staff : StaffRequest := ⟨js "u", none, 0, 0, 0⟩
  let part : SectionRecord := ⟨js "Part", [⟨1, [], [.mcqSingle], 1, 5⟩]⟩
  [.createAssessment staff ⟨jobRoleId, js "Backend", 3600, [part]⟩ 1 assessmentId,
    .publish staff assessmentId fun _ => 1,
    .createInvitations (inviteOne assessmentId assessmentId email short)]

theorem invitations_filed_example :
    let events := oneByOne (inviteTo (js "1") (js "r") ⟨js "ada@example.org", by decide⟩ (by decide) ++
      inviteTo (js "2") (js "r") ⟨js "bob@example.org", by decide⟩ (by decide))
    (reach digitServices .empty events).store.invitations.length = 2 ∧
      ∀ invitation ∈ (reach digitServices .empty events).store.invitations,
        FiledByRole (reach digitServices .empty events).store invitation := by
  intro events
  refine ⟨by decide +kernel, ?_⟩
  exact (invitations_filed digitServices (by decide) rfl events).2 (by decide +kernel) events
    (List.prefix_refl _)

/-- An invitation to the second of two assessments of one name is filed under the role of the
first. -/
theorem invitation_of_another_role :
    ¬ ∀ (services : Services) (events : List Event),
      ∀ invitation ∈ (reach services .empty events).store.invitations,
        Addressed (reach services .empty events).answered (reach services .empty events).store
            invitation ∧
          FiledByRole (reach services .empty events).store invitation := by
  intro always
  let events := oneByOne
    (inviteTo (js "1") (js "r") ⟨js "ada@example.org", by decide⟩ (by decide) ++
      inviteTo (js "2") (js "s") ⟨js "bob@example.org", by decide⟩ (by decide))
  have filed : ∀ invitation ∈ (reach digitServices .empty events).store.invitations,
      FiledByRole (reach digitServices .empty events).store invitation :=
    fun invitation inside => (always digitServices events invitation inside).2
  revert filed
  decide +kernel

end Assaybank.Sittings
