import Assaybank.Credentials.Redemption
import Assaybank.Db.Growth

/-!
Owns the transactions of one organisation that lead to a sitting, as one program.
-/

namespace Assaybank.Sittings

open Assaybank.Runtime Assaybank.Library Assaybank.Contracts Assaybank.Domain
open Assaybank.Auth Assaybank.Db Assaybank.Api Assaybank.Credentials

/-! ### The program -/

/-- A request of the staff, or of a candidate. -/
inductive Request where
  | createAssessment (staff : StaffRequest) (record : CreateAssessmentRecord) (questionCount : Nat)
      (drawn : JsString)
  | publish (staff : StaffRequest) (id : JsString) (available : SectionRuleRecord → Nat)
  | createInvitations (request : CreateInvitationsRequest)
  | redeem (request : RedemptionRequest)

inductive Answer where
  | assessment (id : JsString)
  | published
  | invitations (response : CreateInvitationsResponse)
  | redemption (outcome : RedemptionOutcome)

/-- The transaction of a request. -/
def program (services : Services) : Request → OrgTransaction Answer
  | .createAssessment staff record questionCount drawn =>
      .assessment <$> createAssessmentRoute staff record questionCount drawn
  | .publish staff id available => (fun _ => .published) <$> publishRoute staff id available
  | .createInvitations request => .invitations <$> createInvitationsRoute services request
  | .redeem request => .redemption <$> Credentials.redeem services request

abbrev State := ReadCommitted.State Store Write Key ApiError Request Answer
abbrev Event := ReadCommitted.Event Request
abbrev Session := ReadCommitted.Session Store Write ApiError Request Answer

/-- The state after some events, from a store on which nothing is under way. -/
def reach (services : Services) (store : Store) (events : List Event) : State :=
  (ReadCommitted.State.idle store : State).run engine (program services) events

theorem reach_append (services : Services) (store : Store) (events : List Event) (event : Event) :
    reach services store (events ++ [event]) =
      (reach services store events).step engine (program services) event := by
  unfold reach ReadCommitted.State.run
  rw [List.foldl_append]
  rfl

/-! ### A sample -/

/-- Services whose code of a message is the hexadecimal digits in it. -/
def digitServices : Services :=
  ⟨⟨fun _ message => message.filter isHexDigit, fun _ _ => by simp [List.all_filter]⟩, js "pepper",
    js "https://example.org", js "org", js "k"⟩

/-- A request that invites one address, with one id for all its rows. -/
def inviteOne (assessmentId drawn : JsString) (email : Email) (short : email.text.length ≤ 320) :
    CreateInvitationsRequest where
  staff := ⟨js "u", none, 0, 0, 0⟩
  assessmentId := assessmentId
  body :=
    { emails := [email]
      expiresInDays := none
      maxAttempts := none
      some_email := ⟨le_refl 1, (by decide : 1 ≤ MAX_INVITATIONS_PER_REQUEST)⟩
      short := by simpa using short
      days := nofun
      sittings := nofun }
  draws _ := ⟨drawn, drawn, drawn, drawn, drawn⟩

end Assaybank.Sittings
