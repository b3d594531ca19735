import Assaybank.Db.Invitations

/-!
Owns what the writes of `Db/Invitations.lean` do to the tables.

Contract: a store only grows. What a statement finds or inserts stays, whatever other transactions
commit (`Grows`, `grows_of_others`), and a row that is locked keeps its sittings
(`sittings_of_others`).
-/

namespace Assaybank.Db

open Assaybank.Runtime Assaybank.Library
open Assaybank.Library.ReadCommitted (Engine)

/-! ### Tables -/

def Write.invitation? : Write → Option Invitation
  | .invitation row => some row
  | _ => none

def Write.attempt? : Write → Option Attempt
  | .attempt row => some row
  | _ => none

def Write.audit? : Write → Option AuditRow
  | .audit row => some row
  | _ => none

def Write.jobOpening? : Write → Option JobOpening
  | .jobOpening row => some row
  | _ => none

/-- A table that writes only append to, under some writes. -/
private theorem view_table {Row : Type} (table : Store → List Row) (row? : Write → Option Row)
    (appends : ∀ store write, table (Write.apply store write) = table store ++ (row? write).toList)
    (wrote : List Write) (store : Store) :
    table (engine.view wrote store) = table store ++ wrote.filterMap row? := by
  induction wrote generalizing store with
  | nil => exact (List.append_nil _).symm
  | cons write rest inductionHypothesis =>
      show table (engine.view rest (Write.apply store write)) = _
      rw [inductionHypothesis, appends, List.append_assoc]
      cases found : row? write with
      | none => rw [List.filterMap_cons_none found, Option.toList_none, List.nil_append]
      | some row => rw [List.filterMap_cons_some found, Option.toList_some, List.singleton_append]

section Tables

variable (wrote : List Write) (store : Store)

theorem view_invitations : (engine.view wrote store).invitations =
    store.invitations ++ wrote.filterMap Write.invitation? := by
  apply view_table Store.invitations
  intro before write
  cases write <;> simp [Write.apply, Write.invitation?]

theorem view_attempts : (engine.view wrote store).attempts =
    store.attempts ++ wrote.filterMap Write.attempt? := by
  apply view_table Store.attempts
  intro before write
  cases write <;> simp [Write.apply, Write.attempt?]

theorem view_auditLog : (engine.view wrote store).auditLog =
    store.auditLog ++ wrote.filterMap Write.audit? := by
  apply view_table Store.auditLog
  intro before write
  cases write <;> simp [Write.apply, Write.audit?]

theorem view_jobOpenings : (engine.view wrote store).jobOpenings =
    store.jobOpenings ++ wrote.filterMap Write.jobOpening? := by
  apply view_table Store.jobOpenings
  intro before write
  cases write <;> simp [Write.apply, Write.jobOpening?]

theorem view_append (more : List Write) :
    engine.view (wrote ++ more) store = engine.view more (engine.view wrote store) := by
  unfold ReadCommitted.Engine.view
  rw [List.foldl_append]

end Tables

/-! ### Growth -/

/-- The rows of one store are in another, but for what an update may change of them. -/
structure Grows (before after : Store) : Prop where
  assessments : ∀ row ∈ before.assessments, ∃ later ∈ after.assessments,
    later.id = row.id ∧ later.jobRoleId = row.jobRoleId ∧ later.name = row.name
  candidates : ∀ row ∈ before.candidates, ∃ later ∈ after.candidates,
    later.id = row.id ∧ later.email = row.email
  jobOpenings : ∀ row ∈ before.jobOpenings, row ∈ after.jobOpenings
  applications : ∀ row ∈ before.applications, row ∈ after.applications
  invitations : ∀ row ∈ before.invitations, row ∈ after.invitations
  attempts : before.attempts.Sublist after.attempts

theorem grows_refl (store : Store) : Grows store store where
  assessments row inside := ⟨row, inside, rfl, rfl, rfl⟩
  candidates row inside := ⟨row, inside, rfl, rfl⟩
  jobOpenings _ inside := inside
  applications _ inside := inside
  invitations _ inside := inside
  attempts := List.Sublist.refl _

theorem Grows.trans {first second third : Store} (earlier : Grows first second)
    (later : Grows second third) : Grows first third where
  assessments row inside := by
    obtain ⟨middle, between, id, role, name⟩ := earlier.assessments row inside
    obtain ⟨last, member, sameId, sameRole, sameName⟩ := later.assessments middle between
    exact ⟨last, member, sameId.trans id, sameRole.trans role, sameName.trans name⟩
  candidates row inside := by
    obtain ⟨middle, between, id, email⟩ := earlier.candidates row inside
    obtain ⟨last, member, sameId, sameEmail⟩ := later.candidates middle between
    exact ⟨last, member, sameId.trans id, sameEmail.trans email⟩
  jobOpenings row inside := later.jobOpenings row (earlier.jobOpenings row inside)
  applications row inside := later.applications row (earlier.applications row inside)
  invitations row inside := later.invitations row (earlier.invitations row inside)
  attempts := earlier.attempts.trans later.attempts

private theorem keeps_append {Row : Type} {before after : List Row} {row : Row}
    (keeps : ∀ row ∈ before, row ∈ after) : ∀ found ∈ before ++ [row], found ∈ after ++ [row] := by
  intro found inside
  rcases List.mem_append.mp inside with old | new
  · exact List.mem_append_left _ (keeps found old)
  · exact List.mem_append_right _ new

/-- The same write on two stores keeps the one within the other. -/
private theorem Grows.apply {before after : Store} (grows : Grows before after) (write : Write) :
    Grows (write.apply before) (write.apply after) := by
  cases write with
  | assessment row =>
      refine { grows with assessments := ?_ }
      intro found inside
      rcases List.mem_append.mp inside with old | new
      · obtain ⟨later, member, same⟩ := grows.assessments found old
        exact ⟨later, List.mem_append_left _ member, same⟩
      · exact ⟨found, List.mem_append_right _ new, rfl, rfl, rfl⟩
  | publish id =>
      refine { grows with assessments := ?_ }
      intro found inside
      obtain ⟨old, member, rfl⟩ := List.mem_map.mp inside
      obtain ⟨later, between, sameId, sameRole, sameName⟩ := grows.assessments old member
      refine ⟨_, List.mem_map_of_mem between, ?_⟩
      split <;> split <;> exact ⟨sameId, sameRole, sameName⟩
  | candidate row =>
      refine { grows with candidates := ?_ }
      intro found inside
      rcases List.mem_append.mp inside with old | new
      · obtain ⟨later, member, same⟩ := grows.candidates found old
        exact ⟨later, List.mem_append_left _ member, same⟩
      · exact ⟨found, List.mem_append_right _ new, rfl, rfl⟩
  | nameCandidate email fullName =>
      refine { grows with candidates := ?_ }
      intro found inside
      obtain ⟨old, member, rfl⟩ := List.mem_map.mp inside
      obtain ⟨later, between, sameId, sameEmail⟩ := grows.candidates old member
      refine ⟨_, List.mem_map_of_mem between, ?_⟩
      split <;> split <;> exact ⟨sameId, sameEmail⟩
  | jobOpening row =>
      exact { grows with jobOpenings := keeps_append grows.jobOpenings }
  | application row =>
      exact { grows with applications := keeps_append grows.applications }
  | invitation row =>
      exact { grows with invitations := keeps_append grows.invitations }
  | attempt row => exact { grows with attempts := grows.attempts.append_right _ }
  | touchApplication _ _ | lockInvitation _ | audit _ => exact { grows with }

/-- A write only adds to a store. -/
private theorem grows_write (store : Store) (write : Write) : Grows store (write.apply store) := by
  cases write with
  | assessment row =>
      refine { grows_refl store with assessments := ?_ }
      intro found inside
      exact ⟨found, List.mem_append_left _ inside, rfl, rfl, rfl⟩
  | publish id =>
      refine { grows_refl store with assessments := ?_ }
      intro found inside
      refine ⟨_, List.mem_map_of_mem inside, ?_⟩
      split <;> exact ⟨rfl, rfl, rfl⟩
  | candidate row =>
      refine { grows_refl store with candidates := ?_ }
      intro found inside
      exact ⟨found, List.mem_append_left _ inside, rfl, rfl⟩
  | nameCandidate email fullName =>
      refine { grows_refl store with candidates := ?_ }
      intro found inside
      refine ⟨_, List.mem_map_of_mem inside, ?_⟩
      split <;> exact ⟨rfl, rfl⟩
  | jobOpening row =>
      exact { grows_refl store with jobOpenings := fun _ => List.mem_append_left _ }
  | application row =>
      exact { grows_refl store with applications := fun _ => List.mem_append_left _ }
  | invitation row =>
      exact { grows_refl store with invitations := fun _ => List.mem_append_left _ }
  | attempt row => exact { grows_refl store with attempts := List.sublist_append_left _ _ }
  | touchApplication _ _ | lockInvitation _ | audit _ => exact { grows_refl store with }

theorem grows_view (wrote : List Write) (store : Store) : Grows store (engine.view wrote store) := by
  induction wrote generalizing store with
  | nil => exact grows_refl store
  | cons write rest inductionHypothesis =>
      exact (grows_write store write).trans (inductionHypothesis (write.apply store))

theorem Grows.view {before after : Store} (grows : Grows before after) (wrote : List Write) :
    Grows (engine.view wrote before) (engine.view wrote after) := by
  induction wrote generalizing before after with
  | nil => exact grows
  | cons write rest inductionHypothesis => exact inductionHypothesis (grows.apply write)

theorem grows_of_others {wrote : List Write} {before after : Store}
    (others : engine.Others wrote before after) : Grows before after := by
  obtain ⟨writes, _, rfl⟩ := others
  exact grows_view writes before

/-! ### Who is invited -/

theorem mem_invited {store : Store} {invitation : Invitation} {email : JsString} :
    email ∈ store.invited invitation ↔
      ∃ application ∈ store.applications, invitation.applicationId = some application.id ∧
        ∃ candidate ∈ store.candidates, candidate.id = application.candidateId ∧
          candidate.email.key = email := by
  simp only [Store.invited, List.mem_flatMap, List.mem_map, List.mem_filter, beq_iff_eq, and_assoc]

/-- An invitation reaches one address. -/
theorem eq_of_invited {store : Store} (legal : Legal store) {invitation : Invitation}
    {application : Application} (inside : application ∈ store.applications)
    (applied : invitation.applicationId = some application.id) {candidate : Candidate}
    (member : candidate ∈ store.candidates) (whose : candidate.id = application.candidateId)
    {email : JsString} (invited : email ∈ store.invited invitation) :
    email = candidate.email.key := by
  obtain ⟨found, between, same, other, further, sameWhose, rfl⟩ := mem_invited.mp invited
  have alike : found = application := by
    apply List.inj_on_of_nodup_map legal.applicationIds between inside
    exact Option.some.inj (same.symm.trans applied)
  subst alike
  rw [List.inj_on_of_nodup_map legal.candidateIds further member (sameWhose.trans whose.symm)]

/-- An invitation of a legal store goes on reaching whom it reaches. -/
theorem Grows.invited {before after : Store} (grows : Grows before after) (legal : Legal before)
    (alsoLegal : Legal after) {invitation : Invitation} (inside : invitation ∈ before.invitations)
    {email : JsString} (invited : email ∈ after.invited invitation) :
    email ∈ before.invited invitation := by
  obtain ⟨found, _, applied, _⟩ := mem_invited.mp invited
  obtain ⟨application, member, same⟩ :=
    List.mem_map.mp (legal.invitationApplications invitation inside found.id applied)
  obtain ⟨candidate, between, whose⟩ :=
    List.mem_map.mp (legal.applicationCandidates application member)
  obtain ⟨later, further, sameId, sameEmail⟩ := grows.candidates candidate between
  have mine : invitation.applicationId = some application.id := applied.trans (congrArg some same.symm)
  apply mem_invited.mpr
  refine ⟨application, member, mine, candidate, between, whose, ?_⟩
  rw [eq_of_invited alsoLegal (grows.applications application member) mine further
    (sameId.trans whose) invited, sameEmail]

/-! ### Sittings -/

theorem Grows.sittings_le {before after : Store} (grows : Grows before after) (id : JsString) :
    before.sittings id ≤ after.sittings id := grows.attempts.countP_le

/-- An invitation that is dead stays so. -/
theorem Grows.live {before after : Store} (grows : Grows before after) {now later : Int}
    (onward : now ≤ later) {invitation : Invitation} (live : after.Live later invitation) :
    before.Live now invitation := by
  refine ⟨lt_of_le_of_lt onward live.1, lt_of_le_of_lt ?_ live.2⟩
  exact_mod_cast grows.sittings_le invitation.id

/-- Nobody else sits an invitation whose row is locked. -/
theorem sittings_of_others {wrote : List Write} {before after : Store} {id : JsString}
    (mine : Key.invitation id ∈ engine.claims wrote) (others : engine.Others wrote before after) :
    after.sittings id = before.sittings id := by
  obtain ⟨writes, apart, rfl⟩ := others
  unfold Store.sittings
  rw [view_attempts, List.countP_append, Nat.add_eq_left, List.countP_eq_zero]
  intro row inside
  obtain ⟨write, member, found⟩ := List.mem_filterMap.mp inside
  intro same
  refine apart (.invitation id) (List.mem_flatMap.mpr ⟨write, member, ?_⟩) mine
  cases write with
  | attempt attempt =>
      cases found
      rw [beq_iff_eq] at same
      show Key.invitation id ∈ (row.invitationId.map Key.invitation).toList
      rw [same]
      exact List.mem_singleton_self _
  | _ => cases found

end Assaybank.Db
