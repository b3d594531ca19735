import Assaybank.Sittings.Program

/-!
Owns what each request of the program ends in, whatever the others commit meanwhile.

Contract: at its commit a request has written what `Settles` says of it (`program_sound`). An
invitation request has issued at most one invitation to an address, none to an address that was
live when it looked, and each by an application of that address's candidate; a redemption that is
granted has counted the sittings under the lock of its invitation, and one that is refused has
written nothing.
-/

namespace Assaybank.Sittings

open Assaybank.Runtime Assaybank.Library Assaybank.Contracts Assaybank.Domain
open Assaybank.Auth Assaybank.Db Assaybank.Api Assaybank.Credentials
open Assaybank.Library.ReadCommitted

/-! ### The opening of a title -/

private theorem earliest_eq_none {rows : List JobOpening} : earliest rows = none ↔ rows = [] := by
  cases rows with
  | nil => simp [earliest]
  | cons row rest =>
      rw [earliest]
      cases earliest rest with
      | none => simp
      | some later =>
          simp only
          split <;> simp

private theorem earliest_least {rows : List JobOpening} {found : JobOpening}
    (least : earliest rows = some found) :
    found ∈ rows ∧ ∀ row ∈ rows, found.openedAt ≤ row.openedAt := by
  induction rows generalizing found with
  | nil => cases least
  | cons row rest inductionHypothesis =>
      rw [earliest] at least
      cases inner : earliest rest with
      | none =>
          rw [inner] at least
          cases least
          rw [earliest_eq_none.mp inner]
          simp
      | some later =>
          obtain ⟨inside, minimal⟩ := inductionHypothesis inner
          rw [inner] at least
          simp only at least
          split at least
          · rename_i before
            cases least
            refine ⟨List.mem_cons_of_mem _ inside, ?_⟩
            intro other member
            rcases List.mem_cons.mp member with rfl | further
            · exact before.le
            · exact minimal other further
          · rename_i notBefore
            cases least
            refine ⟨List.mem_cons_self, ?_⟩
            intro other member
            rcases List.mem_cons.mp member with rfl | further
            · exact le_refl _
            · exact (not_lt.mp notBefore).trans (minimal other further)

/-- The earliest row of two lists is that of one of them. -/
private theorem earliest_append (first second : List JobOpening) :
    earliest (first ++ second) = earliest first ∨
      earliest (first ++ second) = earliest second := by
  induction first with
  | nil => exact .inr rfl
  | cons row rest inductionHypothesis =>
      rw [List.cons_append, earliest, earliest]
      rcases inductionHypothesis with same | same
      · rw [same]
        exact .inl rfl
      · cases later : earliest second with
        | none =>
            rw [later, earliest_eq_none, List.append_eq_nil_iff] at same
            rw [same.1, same.2]
            exact .inl rfl
        | some found =>
            rw [same, later]
            simp only
            by_cases before : found.openedAt < row.openedAt
            · rw [if_pos before]
              exact .inr rfl
            · rw [if_neg before]
              left
              cases inner : earliest rest with
              | none => rfl
              | some other =>
                  have least := (earliest_least (same.trans later)).2 other
                    (List.mem_append_left _ (earliest_least inner).1)
                  simp only
                  rw [if_neg fun earlier => before (least.trans_lt earlier)]

/-- What a title finds is the opening that a committed store has for it, or the transaction's
own. -/
private theorem openingTitled_view {wrote : List Write} {store : Store} {title : JsString}
    {found : JobOpening} (titled : (engine.view wrote store).openingTitled title = some found) :
    found ∈ (engine.view wrote store).jobOpenings ∧
      (store.openingTitled title = some found ∨
        ∃ write ∈ wrote, write.jobOpening? = some found) := by
  unfold Store.openingTitled at titled
  constructor
  · exact List.mem_of_mem_filter (earliest_least titled).1
  · rw [view_jobOpenings, List.filter_append] at titled
    rcases earliest_append
        (store.jobOpenings.filter fun row => row.title == title)
        ((wrote.filterMap Write.jobOpening?).filter fun row => row.title == title) with same | same
    · exact .inl (same.symm.trans titled)
    · right
      have inside := (earliest_least (same.symm.trans titled)).1
      exact List.mem_filterMap.mp (List.mem_of_mem_filter inside)

/-! ### What a request ends in -/

/-- A write that touches neither the invitations nor their sittings. -/
structure Silent (write : Write) : Prop where
  invitation : write.invitation? = none
  attempt : write.attempt? = none
  audit : ∀ row, write.audit? = some row → row.action ≠ REDEMPTION_AUDIT_ACTION

/-- A write of an invitation request: an opening it makes is one of the role. -/
structure Ordinary (jobRoleId : JsString) (write : Write) : Prop where
  attempt : write.attempt? = none
  audit : ∀ row, write.audit? = some row → row.action ≠ REDEMPTION_AUDIT_ACTION
  opening : ∀ row, write.jobOpening? = some row → row.jobRoleId = jobRoleId

/-- An application of a candidate, for an opening of the role or the one that a title found. -/
def Applied (jobRoleId title : JsString) (seen : List Store) (visible : Store)
    (candidateId applicationId : JsString) : Prop :=
  ∃ application ∈ visible.applications, application.id = applicationId ∧
    application.candidateId = candidateId ∧
    ∃ opening ∈ visible.jobOpenings, opening.id = application.jobOpeningId ∧
      (opening.jobRoleId = jobRoleId ∨ ∃ read ∈ seen, read.openingTitled title = some opening)

/-- A candidate of an address. -/
def Reaches (visible : Store) (email : Email) (candidateId : JsString) : Prop :=
  ∃ candidate ∈ visible.candidates, candidate.id = candidateId ∧ candidate.email.key = email.key

/-- An invitation row, beside the entry of the response it was issued as. -/
structure Issued (request : CreateInvitationsRequest) (jobRoleId title : JsString)
    (seen : List Store) (visible : Store) (row : Invitation) (entry : IssuedInvitation) :
    Prop where
  id : row.id = entry.id
  assessment : row.assessmentId = request.assessmentId
  maxAttempts : row.maxAttempts = request.maxAttempts
  expiresAt : row.expiresAt = request.expiresAt
  reaches : Reaches visible entry.email entry.candidateId
  applied : ∃ applicationId, row.applicationId = some applicationId ∧
    Applied jobRoleId title seen visible entry.candidateId applicationId

/-- How far an invitation request has come: it has read the live addresses in `read`, and has gone
through the addresses `taken`. -/
structure Filing (request : CreateInvitationsRequest) (jobRoleId title : JsString) (read : Store)
    (taken : List JsString) (response : CreateInvitationsResponse) (seen : List Store)
    (wrote : List Write) (store : Store) : Prop where
  looked : seen[1]? = some read
  legal : Legal read
  grew : Grows read store
  assessment : ∃ row ∈ store.assessments, row.id = request.assessmentId ∧
    row.jobRoleId = some jobRoleId ∧ row.name = title
  issued : List.Forall₂ (Issued request jobRoleId title seen (engine.view wrote store))
    (wrote.filterMap Write.invitation?) response.issued
  asked : ∀ entry ∈ response.issued, entry.email ∈ request.body.emails
  fresh : ∀ entry ∈ response.issued, entry.email.key ∈ taken ∧
    entry.email.key ∉ read.liveInvitedEmails request.assessmentId request.staff.issuedAt
  once : (response.issued.map fun entry => entry.email.key).Nodup
  ordinary : ∀ write ∈ wrote, Ordinary jobRoleId write

/-- Each invitation that a request writes is one of its response. -/
theorem Filing.entry {request : CreateInvitationsRequest} {jobRoleId title : JsString} {read : Store}
    {taken : List JsString} {response : CreateInvitationsResponse} {seen : List Store}
    {wrote : List Write} {store : Store}
    (filing : Filing request jobRoleId title read taken response seen wrote store) {row : Invitation}
    (inside : row ∈ wrote.filterMap Write.invitation?) :
    ∃ entry ∈ response.issued,
      Issued request jobRoleId title seen (engine.view wrote store) row entry := by
  obtain ⟨lengths, each⟩ := List.forall₂_iff_get.mp filing.issued
  obtain ⟨⟨n, bound⟩, rfl⟩ := List.get_of_mem inside
  exact ⟨_, List.get_mem _ _, each n bound (lengths ▸ bound)⟩

/-- A sitting taken: it was counted under the lock of its invitation. -/
def Sits (request : RedemptionRequest) (redemption : Redemption) (wrote : List Write)
    (store : Store) : Prop :=
  ∃ invitation ∈ store.invitations, ∃ (attempt : Attempt) (maxAttempts : Nat),
    attempt.id = redemption.attemptId ∧ attempt.invitationId = some invitation.id ∧
    (maxAttempts : Int) = invitation.maxAttempts ∧ store.sittings invitation.id < maxAttempts ∧
    redemption.sitting = store.sittings invitation.id + 1 ∧
    wrote = [.lockInvitation invitation.id, .attempt attempt,
      .audit (redemptionRow redemption.attemptId invitation.id redemption.sitting maxAttempts
        request.ip request.now)]

/-- What a request that commits has written, by what it answers. -/
def Settles : Request → Answer → List Store → List Write → Store → Prop
  | .createAssessment .., .assessment _, _, wrote, _ => ∀ write ∈ wrote, Silent write
  | .publish .., .published, _, wrote, _ => ∀ write ∈ wrote, Silent write
  | .createInvitations request, .invitations response, seen, wrote, store =>
      ∃ jobRoleId title read taken,
        Filing request jobRoleId title read taken response seen wrote store
  | .redeem _, .redemption (.error _), _, wrote, store => engine.view wrote store = store
  | .redeem request, .redemption (.ok redemption), _, wrote, store =>
      Sits request redemption wrote store
  | _, _, _, _, _ => False

/-- The four ends of a request that commits. -/
theorem settles_cases {request : Request} {a : Answer} {seen : List Store} {wrote : List Write}
    {store : Store} (settled : Settles request a seen wrote store) :
    (∀ write ∈ wrote, Silent write) ∨
      (∃ invitations response, request = .createInvitations invitations ∧
        a = .invitations response ∧ ∃ jobRoleId title read taken,
          Filing invitations jobRoleId title read taken response seen wrote store) ∨
      (∃ refusal, a = .redemption (.error refusal) ∧ engine.view wrote store = store) ∨
      ∃ redeem redemption, request = .redeem redeem ∧ a = .redemption (.ok redemption) ∧
        Sits redeem redemption wrote store := by
  cases request with
  | createAssessment _ _ _ _ =>
      cases a with
      | assessment id => exact .inl settled
      | _ => exact settled.elim
  | publish _ _ _ =>
      cases a with
      | published => exact .inl settled
      | _ => exact settled.elim
  | createInvitations invitations =>
      cases a with
      | invitations response => exact .inr (.inl ⟨invitations, response, rfl, rfl, settled⟩)
      | _ => exact settled.elim
  | redeem redeem =>
      cases a with
      | redemption outcome =>
          cases outcome with
          | error refusal => exact .inr (.inr (.inl ⟨refusal, rfl, settled⟩))
          | ok redemption => exact .inr (.inr (.inr ⟨redeem, redemption, rfl, rfl, settled⟩))
      | _ => exact settled.elim

/-- What writes no invitation leaves those of the store as they are. -/
theorem invitations_of_none {wrote : List Write} {store : Store}
    (none : ∀ write ∈ wrote, write.invitation? = none) :
    (engine.view wrote store).invitations = store.invitations := by
  rw [view_invitations, List.filterMap_eq_nil_iff.mpr none, List.append_nil]

/-- A request that is no invitation request invites nobody. -/
theorem invitations_of_settles {request : Request} {a : Answer} {seen : List Store}
    {wrote : List Write} {store : Store} (settled : Settles request a seen wrote store) :
    (engine.view wrote store).invitations = store.invitations ∨
      ∃ invitations response, request = .createInvitations invitations ∧
        a = .invitations response ∧ ∃ jobRoleId title read taken,
          Filing invitations jobRoleId title read taken response seen wrote store := by
  rcases settles_cases settled with silent | filing | ⟨_, _, same⟩ | ⟨_, _, _, _, sits⟩
  · exact .inl (invitations_of_none fun write mine => (silent write mine).invitation)
  · exact .inr filing
  · exact .inl (congrArg Store.invitations same)
  · obtain ⟨_, _, _, _, _, _, _, _, _, rfl⟩ := sits
    exact .inl (invitations_of_none (by simp [Write.invitation?]))

/-! ### What stays while others commit -/

section Later

variable {jobRoleId title : JsString} {seen ongoing : List Store} {visible grown : Store}

private theorem Applied.mono {candidateId applicationId : JsString}
    (applied : Applied jobRoleId title seen visible candidateId applicationId)
    (saw : ∀ read ∈ seen, read ∈ ongoing) (grows : Grows visible grown) :
    Applied jobRoleId title ongoing grown candidateId applicationId := by
  obtain ⟨application, inside, id, candidate, opening, member, opened, role⟩ := applied
  refine ⟨application, grows.applications _ inside, id, candidate, opening,
    grows.jobOpenings _ member, opened, ?_⟩
  rcases role with same | ⟨read, early, titled⟩
  · exact .inl same
  · exact .inr ⟨read, saw read early, titled⟩

private theorem Reaches.mono {email : Email} {candidateId : JsString}
    (reaches : Reaches visible email candidateId) (grows : Grows visible grown) :
    Reaches grown email candidateId := by
  obtain ⟨candidate, inside, id, key⟩ := reaches
  obtain ⟨same, member, sameId, sameEmail⟩ := grows.candidates candidate inside
  exact ⟨same, member, sameId.trans id, (congrArg Email.key sameEmail).trans key⟩

private theorem Issued.mono {request : CreateInvitationsRequest} {row : Invitation}
    {entry : IssuedInvitation} (issued : Issued request jobRoleId title seen visible row entry)
    (saw : ∀ read ∈ seen, read ∈ ongoing) (grows : Grows visible grown) :
    Issued request jobRoleId title ongoing grown row entry := by
  obtain ⟨applicationId, applied, application⟩ := issued.applied
  exact { issued with
    reaches := issued.reaches.mono grows
    applied := ⟨applicationId, applied, application.mono saw grows⟩ }

/-- What is visible to a transaction grows with what others commit and with what it writes. -/
private theorem grows_visible {wrote more : List Write} {store now : Store}
    (others : engine.Others wrote store now) :
    Grows (engine.view wrote store) (engine.view (wrote ++ more) now) := by
  rw [view_append]
  exact ((grows_of_others others).view wrote).trans (grows_view more _)

/-- The progress of a request outlasts what others commit and what it writes beside an
invitation. -/
private theorem Filing.later {request : CreateInvitationsRequest} {read : Store}
    {taken : List JsString} {response : CreateInvitationsResponse} {wrote more : List Write}
    {store now : Store} (filing : Filing request jobRoleId title read taken response seen wrote store)
    (others : engine.Others wrote store now) (further : List Store)
    (silent : ∀ write ∈ more, write.invitation? = none)
    (ordinary : ∀ write ∈ more, Ordinary jobRoleId write) :
    Filing request jobRoleId title read taken response (seen ++ further) (wrote ++ more) now := by
  have none : more.filterMap Write.invitation? = [] := List.filterMap_eq_nil_iff.mpr silent
  obtain ⟨row, inside, id, role, name⟩ := filing.assessment
  obtain ⟨same, member, sameId, sameRole, sameName⟩ :=
    (grows_of_others others).assessments row inside
  exact {
    looked := by
      rw [List.getElem?_append_left (List.getElem?_eq_some_iff.mp filing.looked).1]
      exact filing.looked
    legal := filing.legal
    grew := filing.grew.trans (grows_of_others others)
    assessment := ⟨same, member, sameId.trans id, sameRole.trans role, sameName.trans name⟩
    issued := by
      rw [List.filterMap_append, none, List.append_nil]
      exact filing.issued.imp fun _ _ issued =>
        issued.mono (fun _ => List.mem_append_left _) (grows_visible others)
    asked := filing.asked
    fresh := filing.fresh
    once := filing.once
    ordinary := by
      intro write inside
      rcases List.mem_append.mp inside with old | new
      · exact filing.ordinary write old
      · exact ordinary write new }

end Later

/-! ### The statements of an invitation request -/

section Statements

variable {seen : List Store} {wrote : List Write} {store : Store}

/-- What a statement of an invitation request writes, beside an invitation. -/
private def Supports (jobRoleId : JsString) (writes : List Write) : Prop :=
  ∀ write ∈ writes, write.invitation? = none ∧ Ordinary jobRoleId write

private theorem sound_upsertCandidate (jobRoleId : JsString) {email : Email} {id : JsString}
    {post : JsString → List Store → List Write → Store → Prop}
    (next : ∀ now candidateId writes, engine.Others wrote store now → Supports jobRoleId writes →
      Reaches (engine.view (wrote ++ writes) now) email candidateId →
      post candidateId (seen ++ [now]) (wrote ++ writes) now) :
    (upsertCandidate email none id).Sound engine Legal post seen wrote store := by
  rw [upsertCandidate, sound_execute]
  intro now others _
  cases found : (engine.view wrote now).candidates.find?
      fun row => row.email.key == email.key with
  | none =>
      apply next now id [.candidate ⟨id, email, none⟩] others
      · intro write inside
        rw [List.mem_singleton.mp inside]
        exact ⟨rfl, rfl, nofun, nofun⟩
      · rw [view_append]
        exact ⟨⟨id, email, none⟩, List.mem_append_right _ (List.mem_singleton_self _), rfl, rfl⟩
  | some row =>
      apply next now row.id [.nameCandidate email none] others
      · intro write inside
        rw [List.mem_singleton.mp inside]
        exact ⟨rfl, rfl, nofun, nofun⟩
      · have reaches : Reaches (engine.view wrote now) email row.id :=
          ⟨row, List.mem_of_find?_eq_some found, rfl,
            beq_iff_eq.mp (List.find?_some (p := fun row : Candidate => row.email.key == email.key) found)⟩
        rw [view_append]
        exact reaches.mono (grows_view _ _)

private theorem sound_upsertApplication {jobRoleId title candidateId jobOpeningId id : JsString}
    {post : JsString → List Store → List Write → Store → Prop}
    (opened : ∃ opening ∈ (engine.view wrote store).jobOpenings, opening.id = jobOpeningId ∧
      (opening.jobRoleId = jobRoleId ∨ ∃ read ∈ seen, read.openingTitled title = some opening))
    (next : ∀ now applicationId writes, engine.Others wrote store now → Supports jobRoleId writes →
      Applied jobRoleId title (seen ++ [now]) (engine.view (wrote ++ writes) now) candidateId
        applicationId → post applicationId (seen ++ [now]) (wrote ++ writes) now) :
    (upsertApplication candidateId jobOpeningId id).Sound engine Legal post seen wrote store := by
  rw [upsertApplication, sound_execute]
  intro now others _
  obtain ⟨opening, member, opened, role⟩ := opened
  have stays (writes : List Write) : ∃ opening ∈ (engine.view (wrote ++ writes) now).jobOpenings,
      opening.id = jobOpeningId ∧ (opening.jobRoleId = jobRoleId ∨
        ∃ read ∈ seen ++ [now], read.openingTitled title = some opening) := by
    refine ⟨opening, (grows_visible others).jobOpenings _ member, opened, ?_⟩
    rcases role with same | ⟨read, early, titled⟩
    · exact .inl same
    · exact .inr ⟨read, List.mem_append_left _ early, titled⟩
  cases found : (engine.view wrote now).applications.find? fun row =>
      row.candidateId == candidateId && row.jobOpeningId == jobOpeningId with
  | none =>
      apply next now id [.application ⟨id, candidateId, jobOpeningId⟩] others
      · intro write inside
        rw [List.mem_singleton.mp inside]
        exact ⟨rfl, rfl, nofun, nofun⟩
      · refine ⟨⟨id, candidateId, jobOpeningId⟩, ?_, rfl, rfl, stays _⟩
        rw [view_append]
        exact List.mem_append_right _ (List.mem_singleton_self _)
  | some row =>
      have matching := List.find?_some
        (p := fun row : Application =>
          row.candidateId == candidateId && row.jobOpeningId == jobOpeningId) found
      rw [Bool.and_eq_true, beq_iff_eq, beq_iff_eq] at matching
      apply next now row.id [.touchApplication candidateId jobOpeningId] others
      · intro write inside
        rw [List.mem_singleton.mp inside]
        exact ⟨rfl, rfl, nofun, nofun⟩
      · obtain ⟨opening, member, opened, role⟩ := stays [.touchApplication candidateId jobOpeningId]
        refine ⟨row, ?_, rfl, matching.1, opening, member, opened.trans matching.2.symm, role⟩
        rw [view_append]
        exact List.mem_of_find?_eq_some found

private theorem sound_applicationFor {jobRoleId title candidateId openingId id : JsString}
    {openedAt : EpochMillis} {post : JsString → List Store → List Write → Store → Prop}
    (own : ∀ write ∈ wrote, Ordinary jobRoleId write)
    (next : ∀ now applicationId further writes, engine.Others wrote store now →
      Supports jobRoleId writes →
      Applied jobRoleId title (seen ++ further) (engine.view (wrote ++ writes) now) candidateId
        applicationId → post applicationId (seen ++ further) (wrote ++ writes) now) :
    (applicationFor candidateId jobRoleId title openedAt openingId id).Sound engine Legal post
      seen wrote store := by
  rw [applicationFor, sound_bind, insertOpening, sound_execute]
  intro first others _
  by_cases titled : (engine.view wrote first).jobOpenings.any fun row => row.title == title
  · rw [if_pos titled, List.append_nil]
    simp only
    rw [sound_bind, sound_query]
    intro second meanwhile _
    cases found : (engine.view wrote second).openingTitled title with
    | none => exact sound_fail _
    | some opening =>
        obtain ⟨member, origin⟩ := openingTitled_view found
        apply sound_upsertApplication ⟨opening, member, rfl, ?_⟩
        · intro now applicationId writes last supports applied
          have all := others_trans others (others_trans meanwhile last)
          rw [List.append_assoc, List.append_assoc] at applied ⊢
          exact next now applicationId _ writes all supports applied
        · rcases origin with committed | ⟨write, mine, same⟩
          · exact .inr ⟨second, by simp, committed⟩
          · exact .inl ((own write mine).opening opening same)
  · rw [if_neg titled]
    simp only
    rw [sound_bind, sound_pure]
    let opening : JobOpening := ⟨openingId, jobRoleId, title, openedAt⟩
    have member : opening ∈ (engine.view (wrote ++ [.jobOpening opening]) first).jobOpenings := by
      rw [view_append]
      exact List.mem_append_right _ (List.mem_singleton_self _)
    apply sound_upsertApplication ⟨opening, member, rfl, .inl rfl⟩
    intro now applicationId writes last supports applied
    have all := others_trans others (others_of_append last)
    rw [List.append_assoc] at applied
    rw [List.append_assoc wrote] at applied ⊢
    rw [List.append_assoc]
    apply next now applicationId _ _ all ?_ applied
    intro write inside
    rcases List.mem_append.mp inside with mine | later
    · rw [List.mem_singleton.mp mine]
      refine ⟨rfl, rfl, nofun, ?_⟩
      intro row same
      cases same
      rfl
    · exact supports write later

end Statements

/-! ### The invitation request -/

section Inviting

variable {request : CreateInvitationsRequest} {jobRoleId title : JsString} {read : Store}
  {taken : List JsString} {response : CreateInvitationsResponse} {seen : List Store}
  {wrote : List Write} {store : Store}

/-- Progress by one invitation, to an address that was neither taken nor live. -/
private theorem Filing.issue {now : Store} {row : Invitation} {entry : IssuedInvitation}
    (filing : Filing request jobRoleId title read taken response seen wrote store)
    (others : engine.Others wrote store now)
    (issued : Issued request jobRoleId title seen (engine.view wrote store) row entry)
    (asked : entry.email ∈ request.body.emails) (untaken : entry.email.key ∉ taken)
    (dead : entry.email.key ∉ read.liveInvitedEmails request.assessmentId request.staff.issuedAt) :
    Filing request jobRoleId title read (entry.email.key :: taken)
      { response with issued := response.issued ++ [entry] } (seen ++ [now])
      (wrote ++ [.invitation row]) now := by
  have onward : Filing request jobRoleId title read taken response (seen ++ [now]) (wrote ++ [])
      now := filing.later others [now] nofun nofun
  rw [List.append_nil] at onward
  refine { onward with issued := ?_, asked := ?_, fresh := ?_, once := ?_, ordinary := ?_ }
  · rw [List.filterMap_append]
    apply List.rel_append
    · exact filing.issued.imp fun _ _ earlier =>
        earlier.mono (fun _ => List.mem_append_left _) (grows_visible others)
    · exact .cons (issued.mono (fun _ => List.mem_append_left _) (grows_visible others)) .nil
  · intro found inside
    rcases List.mem_append.mp inside with old | new
    · exact filing.asked found old
    · rw [List.mem_singleton.mp new]
      exact asked
  · intro found inside
    rcases List.mem_append.mp inside with old | new
    · obtain ⟨member, gone⟩ := filing.fresh found old
      exact ⟨List.mem_cons_of_mem _ member, gone⟩
    · rw [List.mem_singleton.mp new]
      exact ⟨List.mem_cons_self, dead⟩
  · rw [List.map_append, List.nodup_append]
    refine ⟨filing.once, List.nodup_singleton _, ?_⟩
    intro key old other new
    obtain ⟨found, inside, rfl⟩ := List.mem_map.mp old
    rw [List.map_singleton, List.mem_singleton] at new
    rw [new]
    intro same
    exact untaken (same ▸ (filing.fresh found inside).1)
  · intro write inside
    rcases List.mem_append.mp inside with old | new
    · exact filing.ordinary write old
    · rw [List.mem_singleton.mp new]
      exact ⟨rfl, nofun, nofun⟩

/-- The progress of a request outlasts the row that records it, and the wait for the commit. -/
private theorem Filing.recorded {first now : Store} {row : AuditRow}
    (filing : Filing request jobRoleId title read taken response seen wrote store)
    (others : engine.Others wrote store first)
    (later : engine.Others (wrote ++ [.audit row]) first now)
    (other : row.action ≠ REDEMPTION_AUDIT_ACTION) :
    Filing request jobRoleId title read taken response (seen ++ [first]) (wrote ++ [.audit row])
      now := by
  have silent : ∀ write ∈ [Write.audit row], write.invitation? = none ∧ Ordinary jobRoleId write := by
    intro write inside
    rw [List.mem_singleton.mp inside]
    refine ⟨rfl, rfl, ?_, nofun⟩
    intro found same
    cases same
    exact other
  have recorded := filing.later others [first] (fun write inside => (silent write inside).1)
    fun write inside => (silent write inside).2
  have settled : Filing request jobRoleId title read taken response (seen ++ [first] ++ [])
      (wrote ++ [.audit row] ++ []) now := recorded.later later [] nofun nofun
  rwa [List.append_nil, List.append_nil] at settled

private theorem Filing.taking (filing : Filing request jobRoleId title read taken response seen
    wrote store) (key : JsString) (skipped : List Email) :
    Filing request jobRoleId title read (key :: taken) { response with skipped := skipped } seen
      wrote store :=
  { filing with
    fresh := fun entry inside =>
      ⟨List.mem_cons_of_mem _ (filing.fresh entry inside).1, (filing.fresh entry inside).2⟩ }

/-- The loop keeps the progress of the request, by induction on the addresses left. -/
private theorem sound_issueEach (services : Services) (n : Nat) (emails : List Email)
    (asked : ∀ email ∈ emails, email ∈ request.body.emails)
    (filing : Filing request jobRoleId title read taken response seen wrote store) :
    (issueEach services request jobRoleId title
        (read.liveInvitedEmails request.assessmentId request.staff.issuedAt) n emails taken
        response).Sound engine Legal
      (fun response seen wrote store => ∃ taken,
        Filing request jobRoleId title read taken response seen wrote store) seen wrote store := by
  induction emails generalizing n taken response seen wrote store with
  | nil => exact ⟨taken, filing⟩
  | cons email rest inductionHypothesis =>
      have later : ∀ email ∈ rest, email ∈ request.body.emails :=
        fun email inside => asked email (List.mem_cons_of_mem _ inside)
      rw [issueEach]
      split
      · exact inductionHypothesis _ later filing
      · rename_i untaken
        split
        · exact inductionHypothesis _ later (filing.taking email.key _)
        · rename_i dead
          simp only
          rw [sound_bind]
          apply sound_upsertCandidate jobRoleId
          intro first candidateId candidates others supports reaches
          have named := filing.later others [first] (fun w inside => (supports w inside).1)
            fun w inside => (supports w inside).2
          rw [sound_bind]
          apply sound_applicationFor named.ordinary
          intro second applicationId further applications meanwhile also applied
          have filed := named.later meanwhile further (fun w inside => (also w inside).1)
            fun w inside => (also w inside).2
          rw [sound_bind, createInvitation, sound_execute]
          intro third last _
          let draw := request.draws n
          have issued : Issued request jobRoleId title (seen ++ [first] ++ further)
              (engine.view (wrote ++ candidates ++ applications) second)
              ⟨draw.invitationId, some applicationId, request.assessmentId,
                hashToken services.mac draw.token services.tokenPepper, none, request.expiresAt,
                request.maxAttempts, none, request.staff.userId⟩
              ⟨draw.invitationId, candidateId, email,
                withoutTrailingSlash services.candidateUrl ++ js "/t/" ++ draw.token,
                request.expiresAt⟩ := {
            id := rfl
            assessment := rfl
            maxAttempts := rfl
            expiresAt := rfl
            reaches := reaches.mono (grows_visible meanwhile)
            applied := ⟨applicationId, rfl, applied⟩ }
          exact inductionHypothesis _ later
            (filed.issue last issued (asked email List.mem_cons_self) untaken dead)

theorem sound_createInvitationsRoute (services : Services) (request : CreateInvitationsRequest)
    (store : Store) :
    (createInvitationsRoute services request).Sound engine Legal
      (engine.Settled Legal fun response seen wrote store => ∃ jobRoleId title read taken,
        Filing request jobRoleId title read taken response seen wrote store) [] [] store := by
  rw [createInvitationsRoute, sound_bind, assessmentPublishState, sound_query]
  intro first _ _
  cases found : (engine.view [] first).assessments.find? fun row =>
      row.id == request.assessmentId with
  | none => exact sound_fail _
  | some row =>
      simp only [Option.map_some]
      split
      · exact sound_fail _
      · cases role : row.jobRoleId with
        | none => exact sound_fail _
        | some jobRoleId =>
            simp only
            rw [sound_bind, liveInvitedEmails, sound_query]
            intro read others legal
            have inside := List.mem_of_find?_eq_some found
            obtain ⟨same, member, sameId, sameRole, sameName⟩ :=
              (grows_of_others others).assessments row inside
            have id := beq_iff_eq.mp
              (List.find?_some (p := fun row : Assessment => row.id == request.assessmentId) found)
            rw [sound_bind]
            refine sound_mono ?_ (sound_issueEach services 0 request.body.emails
              (fun _ inside => inside) {
              looked := rfl
              legal := legal
              grew := grows_refl read
              assessment := ⟨same, member, sameId.trans id, sameRole.trans role, sameName⟩
              issued := .nil
              asked := nofun
              fresh := nofun
              once := List.nodup_nil
              ordinary := nofun })
            intro response seen wrote store ⟨taken, filing⟩
            rw [sound_bind, audited, writeAudit, sound_execute]
            intro audit meanwhile _ now later _
            have other : INVITATION_CREATE_ACTION ≠ REDEMPTION_AUDIT_ACTION := by decide
            exact ⟨jobRoleId, row.name, read, taken, filing.recorded meanwhile later other⟩

end Inviting

/-! ### The other requests -/

private theorem silent_audited {staff : StaffRequest} {action entityId : JsString}
    {after : List (JsString × (JsString ⊕ Int))} {post : Unit → List Store → List Write → Store → Prop}
    {seen : List Store} {wrote : List Write} {store : Store} (silent : ∀ write ∈ wrote, Silent write)
    (other : action ≠ REDEMPTION_AUDIT_ACTION)
    (next : ∀ seen wrote store, (∀ write ∈ wrote, Silent write) → post () seen wrote store) :
    (audited staff action entityId after).Sound engine Legal post seen wrote store := by
  rw [audited, writeAudit, sound_execute]
  intro now _ _
  apply next
  intro write inside
  rcases List.mem_append.mp inside with old | new
  · exact silent write old
  · rw [List.mem_singleton.mp new]
    refine ⟨rfl, rfl, ?_⟩
    intro row same
    cases same
    exact other

private theorem sound_createAssessmentRoute (staff : StaffRequest) (record : CreateAssessmentRecord)
    (questionCount : Nat) (drawn : JsString) (store : Store) :
    (createAssessmentRoute staff record questionCount drawn).Sound engine Legal
      (engine.Settled Legal fun _ _ wrote _ => ∀ write ∈ wrote, Silent write) [] [] store := by
  rw [createAssessmentRoute, sound_bind, createAssessment]
  split
  · rw [sound_execute]
    intro now _ _
    rw [sound_bind]
    apply silent_audited ?_ (by decide)
    · intro seen wrote store silent _ _ _
      exact silent
    · intro write inside
      rw [List.mem_singleton.mp inside]
      exact ⟨rfl, rfl, nofun⟩
  · exact sound_fail _

private theorem sound_publishRoute (staff : StaffRequest) (id : JsString)
    (available : SectionRuleRecord → Nat) (store : Store) :
    (publishRoute staff id available).Sound engine Legal
      (engine.Settled Legal fun _ _ wrote _ => ∀ write ∈ wrote, Silent write) [] [] store := by
  rw [publishRoute, sound_bind, assessmentPublishState, sound_query]
  intro first _ _
  cases Option.map _ _ with
  | none => exact sound_fail _
  | some state =>
      simp only
      split
      · exact sound_fail _
      · split
        · exact sound_fail _
        · rw [sound_bind, assessmentRules, sound_query]
          intro second _ _
          split
          · exact sound_fail _
          · rw [sound_bind, publishAssessment, sound_execute]
            intro third _ _
            split
            · apply silent_audited ?_ (by decide)
              · intro seen wrote store silent _ _ _
                exact silent
              · intro write inside
                rw [List.mem_singleton.mp inside]
                exact ⟨rfl, rfl, nofun⟩
            · exact sound_fail _

/-! ### The redemption -/

private theorem mem_of_locked {store : Store} {invitationId tokenHash : JsString} {row : Invitation}
    (found : store.invitations.find? (fun row =>
      row.id == invitationId && row.tokenHash == tokenHash) = some row) :
    row ∈ store.invitations := List.mem_of_find?_eq_some found

private theorem requireCount_ok {value : Int} {count : Nat}
    (counted : requireCount value = .ok count) : (count : Int) = value := by
  unfold requireCount at counted
  split at counted
  · rename_i positive
    cases counted
    exact Int.toNat_of_nonneg positive
  · cases counted

private theorem toLockedInvitation_ok {row : Invitation} {joined : JoinedRow} {sittings parts : Nat}
    {invitation : LockedInvitation}
    (read : toLockedInvitation row joined sittings parts = .ok invitation) :
    invitation.invitationId = row.id ∧ (invitation.maxAttempts : Int) = row.maxAttempts ∧
      invitation.sittingsTaken = sittings := by
  unfold toLockedInvitation at read
  cases most : requireCount row.maxAttempts with
  | error error => rw [most] at read; cases read
  | ok maxAttempts =>
      cases duration : requireCount joined.assessment.durationSeconds with
      | error error => rw [most, duration] at read; cases read
      | ok durationSeconds =>
          cases version : requireCount joined.assessment.versionNo with
          | error error => rw [most, duration, version] at read; cases read
          | ok versionNo =>
              rw [most, duration, version] at read
              cases read
              exact ⟨rfl, requireCount_ok most, rfl⟩

private theorem decideRedemption_ok {services : Services} {presented candidateId : JsString}
    {invitation : LockedInvitation} {now : EpochMillis}
    (decided : decideRedemption services presented invitation now = .ok candidateId) :
    invitation.sittingsTaken < invitation.maxAttempts := by
  unfold decideRedemption at decided
  split at decided
  · cases decided
  · split at decided
    · cases decided
    · split at decided
      · cases decided
      · split at decided
        · cases decided
        · split at decided
          · cases decided
          · split at decided
            · cases decided
            · rename_i room
              exact not_le.mp room

/-- What a redemption ends in, by its outcome. -/
private def Redeems (request : RedemptionRequest) (outcome : RedemptionOutcome)
    (wrote : List Write) (store : Store) : Prop :=
  match outcome with
  | .error _ => engine.view wrote store = store
  | .ok redemption => Sits request redemption wrote store

/-- The attempt and its record are written under the lock, so the count still stands when they are
committed. -/
private theorem sound_takeSitting (services : Services) (request : RedemptionRequest)
    {invitation : LockedInvitation} {row : Invitation} (candidateId : JsString) {store : Store}
    {seen : List Store} (inside : row ∈ store.invitations) (id : invitation.invitationId = row.id)
    (most : (invitation.maxAttempts : Int) = row.maxAttempts)
    (counted : invitation.sittingsTaken = store.sittings row.id)
    (room : invitation.sittingsTaken < invitation.maxAttempts) :
    (takeSitting services request invitation candidateId).Sound engine Legal
      (engine.Settled Legal fun outcome _ wrote store => Redeems request outcome wrote store)
      seen [.lockInvitation row.id] store := by
  rw [takeSitting, sound_bind, createAttempt, sound_execute]
  intro first others _
  rw [sound_bind, writeAudit, sound_execute]
  intro second meanwhile _ now last _
  have mine (more : List Write) : Key.invitation row.id ∈
      engine.claims (Write.lockInvitation row.id :: more) := List.mem_cons_self
  have stays := (grows_of_others others).trans
    ((grows_of_others meanwhile).trans (grows_of_others last))
  have same : now.sittings row.id = invitation.sittingsTaken := by
    rw [sittings_of_others (mine _) last, sittings_of_others (mine _) meanwhile,
      sittings_of_others (mine _) others, counted]
  refine ⟨row, stays.invitations row inside,
    ⟨request.attemptId, some invitation.invitationId, candidateId, invitation.assessment.id,
      invitation.assessment.versionNo, request.now⟩, invitation.maxAttempts, rfl, ?_, most, ?_, ?_, ?_⟩
  · rw [id]
  · rw [same]
    exact room
  · rw [same]
  · rw [id]
    rfl

theorem sound_redeem (services : Services) (request : RedemptionRequest) (store : Store) :
    (Credentials.redeem services request).Sound engine Legal
      (engine.Settled Legal fun outcome _ wrote store => Redeems request outcome wrote store)
      [] [] store := by
  have refused (refusal : Refusal) (seen : List Store) (store : Store) :
      (pure (.error refusal) : OrgTransaction RedemptionOutcome).Sound engine Legal
        (engine.Settled Legal fun outcome _ wrote store => Redeems request outcome wrote store)
        seen [] store := fun _ _ _ => rfl
  unfold Credentials.redeem
  simp only
  split
  · exact refused _ _ _
  · rw [sound_bind, sound_query]
    intro first _ _
    split
    · exact refused _ _ _
    · rw [sound_bind, withLockedInvitation, sound_bind, sound_query]
      intro second _ _
      cases joinedRow? (engine.view [] second) _ with
      | none => exact refused _ _ _
      | some joined =>
          simp only
          rw [sound_bind, lockInvitation, sound_execute]
          intro third _ _
          cases found : (engine.view [] third).invitations.find? _ with
          | none => exact refused _ _ _
          | some row =>
              simp only
              rw [sound_bind, sound_query]
              intro fourth counting _
              rw [sound_bind, sound_ofExcept]
              intro invitation read
              obtain ⟨id, most, taken⟩ := toLockedInvitation_ok read
              have inside := (grows_of_others counting).invitations row (mem_of_locked found)
              have counted : invitation.sittingsTaken = fourth.sittings row.id := taken
              rw [sound_map]
              cases decided : decideRedemption services _ invitation request.now with
              | error refusal => exact fun _ _ _ => rfl
              | ok candidateId =>
                  exact sound_takeSitting services request candidateId inside id most counted
                    (decideRedemption_ok decided)

/-- Whatever the others commit, a request ends in what `Settles` says of it. -/
theorem program_sound (services : Services) (request : Request) (store : Store) :
    (program services request).Sound engine Legal (engine.Settled Legal (Settles request)) [] []
      store := by
  cases request with
  | createAssessment staff record questionCount drawn =>
      rw [program, sound_map]
      exact sound_createAssessmentRoute staff record questionCount drawn store
  | publish staff id available =>
      rw [program, sound_map]
      exact sound_publishRoute staff id available store
  | createInvitations request =>
      rw [program, sound_map]
      exact sound_createInvitationsRoute services request store
  | redeem request =>
      rw [program, sound_map]
      refine sound_mono ?_ (sound_redeem services request store)
      intro outcome seen wrote before settled now others legal
      have redeems := settled now others legal
      cases outcome <;> exact redeems

end Assaybank.Sittings
