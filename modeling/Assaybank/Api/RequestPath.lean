import Assaybank.Api.Csrf
import Assaybank.Db.Cursor

/-!
Owns the way of a request to its handler: the order of the checks (`apps/api/src/server.ts`), the
two ways to a principal (`apps/api/src/credentials/routes.ts`,
`apps/api/src/auth/staff-session.ts`), and the permissions of a member of staff
(`apps/api/src/auth/permission-set.ts`).

Contract: a request reaches the handler of a registered route exactly when it passes the cross-site
check, does not bring both kinds of credential, the route is open, or open to a session and it brings
one, or asks for a permission that a role assigned to the user of its session grants in the
organisation of that session, and no phase of the framework answers it first (`request_reaches`).

It does not own what the session store answers for a request's headers, nor what the framework's own
phases answer: the request hooks of its plugins, the rate limiter among them, the parsing of a body
and the schema of a route are parameters (`Phases`).
-/

namespace Assaybank.Api.RequestPath

open Assaybank.Runtime Assaybank.Library Assaybank.Contracts Assaybank.Db Assaybank.Auth
open Assaybank.Domain Assaybank.Api.Authorisation Assaybank.Api.Csrf
open Assaybank.Credentials.AttemptAuth

/-! ### Permissions of a user -/

structure UserRow where
  id : RowId
  orgId : RowId
deriving DecidableEq

/-- A role. One of no organisation is shared by all. -/
structure UserRoleRow where
  id : RowId
  orgId : Option RowId
deriving DecidableEq

structure UserRolePermissionRow where
  userRoleId : RowId
  permissionKey : Permission
deriving DecidableEq

structure UserRoleAssignmentRow where
  userId : RowId
  userRoleId : RowId
deriving DecidableEq

structure StaffTables where
  users : List UserRow
  userRoles : List UserRoleRow
  userRolePermissions : List UserRolePermissionRow
  userRoleAssignments : List UserRoleAssignmentRow

/-- The rows an organisation's transaction can read. -/
def inOrg (tables : StaffTables) (org : RowId) : StaffTables :=
  let users := tables.users.filter fun user => user.orgId = org
  let userRoles := tables.userRoles.filter fun role => role.orgId = none ∨ role.orgId = some org
  { users, userRoles
    userRolePermissions := tables.userRolePermissions.filter fun granted =>
      userRoles.any fun role => role.id = granted.userRoleId
    userRoleAssignments := tables.userRoleAssignments.filter fun assigned =>
      users.any fun user => user.id = assigned.userId }

/-- The keys of a user, as the transaction reads them. -/
def resolvePermissions (tx : StaffTables) (userId : RowId) : List Permission :=
  ((tx.userRoleAssignments.filter fun assigned => assigned.userId = userId).flatMap fun assigned =>
    (tx.userRolePermissions.filter fun granted => granted.userRoleId = assigned.userRoleId).map
      UserRolePermissionRow.permissionKey).eraseDups

/-! ### The session -/

/-- What the session store answers: a session's token, and a user's identifiers as stored. -/
structure ResolvedSession where
  session : Option JsString
  user : Option (Option Value × Option Value)

/-- The headers, one value a name. -/
def toWebHeaders (headers : Headers) (name : JsString) : Option JsString :=
  (headers name).map fun value =>
    match value with
    | .one text => text
    | .many texts => joinWith (js ", ") texts

abbrev GetSession := (JsString → Option JsString) → Option ResolvedSession

/-- Who a session is of. -/
structure StaffSessionSubject where
  userId : JsString
  orgId : JsString
  token : JsString
deriving DecidableEq

def resolveStaffSession (getSession : GetSession) (headers : Headers) :
    Option StaffSessionSubject :=
  match getSession (toWebHeaders headers) with
  | some ⟨some token, some (id, orgId)⟩ =>
      match id.bind UuidSchema.safeParse, orgId.bind UuidSchema.safeParse with
      | some userId, some orgId => some ⟨userId, orgId, token⟩
      | _, _ => none
  | _ => none

/-- The principal of a session, with the keys its user holds at this moment. -/
def staffOf (tables : StaffTables) (subject : StaffSessionSubject) : StaffPrincipal where
  userId := subject.userId
  orgId := subject.orgId
  permissions :=
    match readUuid subject.orgId, readUuid subject.userId with
    | some org, some user => resolvePermissions (inOrg tables org) user
    | _, _ => []

def resolveStaffPrincipal (getSession : GetSession) (tables : StaffTables) (headers : Headers) :
    Option StaffPrincipal :=
  (resolveStaffSession getSession headers).map (staffOf tables)

/-! ### The order of the checks -/

structure StaffIdentity where
  sessionSecret : JsString
  secureCookies : Bool
  getSession : GetSession

/-- What a server is built with. -/
structure ServerServices where
  corsAllowedOrigins : List JsString
  /-- The key of attempt tokens. -/
  credentials : Option JsString
  staffIdentity : Option StaffIdentity

def csrfOptions (services : ServerServices) : CsrfOptions where
  allowedOrigins := services.corsAllowedOrigins
  token := services.staffIdentity.map fun identity =>
    ⟨identity.sessionSecret, identity.secureCookies⟩

/-- Whether the framework lets a request by in the phases that are not this repository's: the request
hooks of the plugins it registers (the rate limiter, the preflight answers), the parsing of the body
and its validation by the schema of the route. -/
structure Phases where
  onRequest : CsrfRequest → RouteOptions → Bool
  parsing : CsrfRequest → RouteOptions → Bool
  validation : CsrfRequest → RouteOptions → Bool

/-- No phase answers the request itself. -/
structure Phases.LetBy (phases : Phases) (request : CsrfRequest) (route : RouteOptions) : Prop where
  onRequest : phases.onRequest request route = true
  parsing : phases.parsing request route = true
  validation : phases.validation request route = true

/-- What stops a request before its handler. -/
inductive Refused where
  | crossSite (rejection : CsrfRejection)
  | onRequest
  | parsing
  | domainsCrossed
  | denied (denial : Denial)
  | validation
deriving DecidableEq

/-- The bearer hook: a header that does not authenticate is passed over. -/
def candidateAuthentication (mac : Mac) (services : ServerServices) (now : EpochMillis)
    (headers : Headers) : Option CandidatePrincipal :=
  match services.credentials, headers (js "authorization") with
  | some signingKey, some header =>
      (authenticateAttempt mac (some header) ⟨signingKey, now, none, .attemptToken⟩).toOption
  | _, _ => none

/-- The session hook. -/
def staffAuthentication (services : ServerServices) (tables : StaffTables) (headers : Headers)
    (existing : Option CandidatePrincipal) : Except Refused (Option Principal) :=
  match services.staffIdentity, existing with
  | none, existing => .ok (existing.map .candidate)
  | some identity, some candidate =>
      if (resolveStaffSession identity.getSession headers).isSome then .error .domainsCrossed
      else .ok (some (.candidate candidate))
  | some identity, none =>
      .ok ((resolveStaffPrincipal identity.getSession tables headers).map .staff)

/-- The hooks before validation: the session, then what the route declares. -/
def preValidation (server : Server) (services : ServerServices) (tables : StaffTables)
    (request : CsrfRequest) (route : RouteOptions) (existing : Option CandidatePrincipal) :
    Except Refused (Option Principal) :=
  match staffAuthentication services tables request.headers existing with
  | .error refused => .error refused
  | .ok principal =>
      match authorise server.index (matched route request.method principal) with
      | .error denial => .error (.denied denial)
      | .ok () => .ok principal

/-- The phases of a request a route was found for, in order. The cross-site check and the bearer hook
are of the instance and stand before the hooks of the plugins, which are of the route. What is left
is the principal the handler sees. -/
def serve (mac : Mac) (phases : Phases) (server : Server) (services : ServerServices)
    (tables : StaffTables) (now : EpochMillis) (request : CsrfRequest) (route : RouteOptions) :
    Except Refused (Option Principal) :=
  match csrfRejection mac request (csrfOptions services) with
  | some rejection => .error (.crossSite rejection)
  | none =>
      let candidate := candidateAuthentication mac services now request.headers
      if phases.onRequest request route = false then .error .onRequest
      else if phases.parsing request route = false then .error .parsing
      else
        match preValidation server services tables request route candidate with
        | .error refused => .error refused
        | .ok principal =>
            if phases.validation request route = false then .error .validation else .ok principal

/-! ### What is granted -/

/-- A role assigned to a user grants a permission, in the organisation of the user: a role of that
organisation, or a shared one. -/
def Granted (tables : StaffTables) (userId orgId : JsString) (permission : Permission) : Prop :=
  ∃ user ∈ tables.users, readUuid userId = some user.id ∧ readUuid orgId = some user.orgId ∧
    ∃ role ∈ tables.userRoles, (role.orgId = none ∨ role.orgId = some user.orgId) ∧
      ⟨user.id, role.id⟩ ∈ tables.userRoleAssignments ∧
      ⟨role.id, permission⟩ ∈ tables.userRolePermissions

theorem mem_resolvePermissions {tables : StaffTables} {org userId : RowId}
    {permission : Permission} :
    permission ∈ resolvePermissions (inOrg tables org) userId ↔
      ∃ user ∈ tables.users, user.id = userId ∧ user.orgId = org ∧
        ∃ role ∈ tables.userRoles, (role.orgId = none ∨ role.orgId = some org) ∧
          ⟨userId, role.id⟩ ∈ tables.userRoleAssignments ∧
          ⟨role.id, permission⟩ ∈ tables.userRolePermissions := by
  rw [resolvePermissions, List.mem_eraseDups, inOrg]
  simp only [List.mem_flatMap, List.mem_filter, List.mem_map, List.any_eq_true, decide_eq_true_eq]
  constructor
  · rintro ⟨⟨assignee, roleId⟩, ⟨⟨assigned, user, ⟨known, ours⟩, same⟩, mine⟩, ⟨holder, key⟩,
      ⟨⟨granted, role, ⟨listed, visible⟩, named⟩, ofRole⟩, rfl⟩
    cases mine
    cases ofRole
    subst named
    exact ⟨user, known, same, ours, role, listed, visible, assigned, granted⟩
  · rintro ⟨user, known, same, ours, role, listed, visible, assigned, granted⟩
    exact ⟨⟨userId, role.id⟩, ⟨⟨assigned, user, ⟨known, ours⟩, same⟩, rfl⟩, ⟨role.id, permission⟩,
      ⟨⟨granted, role, ⟨listed, visible⟩, rfl⟩, rfl⟩, rfl⟩

/-! ### Who reaches a handler -/

/-- The session a request brings, where the server has sessions. -/
def sessionOf (services : ServerServices) (headers : Headers) : Option StaffSessionSubject :=
  services.staffIdentity.bind fun identity => resolveStaffSession identity.getSession headers

/-- An entry of the public list is for this route and asks for this credential. -/
def Listed (server : Server) (route : RouteOptions) (method : JsString)
    (credential : PublicCredential) : Prop :=
  ∃ entry ∈ server.publicRoutes,
    routeKey entry.method entry.url = routeKey method route.url ∧ entry.credential = credential

private theorem mem_permissions_staffOf {tables : StaffTables} {subject : StaffSessionSubject}
    {permission : Permission} :
    permission ∈ (staffOf tables subject).permissions ↔
      Granted tables subject.userId subject.orgId permission := by
  show permission ∈ (match readUuid subject.orgId, readUuid subject.userId with
    | some org, some user => resolvePermissions (inOrg tables org) user
    | _, _ => []) ↔ _
  unfold Granted
  cases readUuid subject.orgId with
  | none => simp
  | some org =>
      cases readUuid subject.userId with
      | none => simp
      | some user =>
          rw [mem_resolvePermissions]
          constructor
          · rintro ⟨row, known, rfl, rfl, granted⟩
            exact ⟨row, known, rfl, rfl, granted⟩
          · rintro ⟨row, known, mine, ours, granted⟩
            cases mine
            cases ours
            exact ⟨row, known, rfl, rfl, granted⟩

/-- What lets a principal in, by what the public list asks for. -/
private theorem letsIn_iff {server : Server} {route : RouteOptions} {method : JsString}
    {principal : Option Principal} :
    LetsIn server route method principal ↔
      Listed server route method .none ∨
      (∃ staff, principal = some (.staff staff)) ∧ Listed server route method .session ∨
      ∃ permission ∈ PERMISSIONS, route.authorisation = some (.permission permission) ∧
        ∃ staff, principal = some (.staff staff) ∧ permission ∈ staff.permissions := by
  unfold LetsIn Listed
  constructor
  · rintro (⟨entry, inside, named, asks⟩ | granted)
    · rcases asks with free | holder
      · exact .inl ⟨entry, inside, named, free⟩
      · cases credential : entry.credential with
        | none => exact .inl ⟨entry, inside, named, credential⟩
        | session => exact .inr (.inl ⟨holder, entry, inside, named, credential⟩)
    · exact .inr (.inr granted)
  · rintro (⟨entry, inside, named, free⟩ | ⟨holder, entry, inside, named, _⟩ | granted)
    · exact .inl ⟨entry, inside, named, .inl free⟩
    · exact .inl ⟨entry, inside, named, .inr holder⟩
    · exact .inr granted

/-- What the two hooks make of a request. -/
private theorem staffAuthentication_eq (services : ServerServices) (tables : StaffTables)
    (headers : Headers) (existing : Option CandidatePrincipal) :
    staffAuthentication services tables headers existing =
      match existing, sessionOf services headers with
      | some _, some _ => .error .domainsCrossed
      | some candidate, none => .ok (some (.candidate candidate))
      | none, session => .ok ((session.map (staffOf tables)).map .staff) := by
  unfold staffAuthentication sessionOf
  cases services.staffIdentity with
  | none => cases existing <;> rfl
  | some identity =>
      rw [Option.bind_some]
      cases existing with
      | none => rfl
      | some candidate =>
          simp only
          cases resolveStaffSession identity.getSession headers <;> rfl

/-- The phases that are not this repository's only take requests away. -/
private theorem serve_eq_ok_iff {mac : Mac} {phases : Phases} {server : Server}
    {services : ServerServices} {tables : StaffTables} {now : EpochMillis} {request : CsrfRequest}
    {route : RouteOptions} {principal : Option Principal} :
    serve mac phases server services tables now request route = .ok principal ↔
      csrfRejection mac request (csrfOptions services) = none ∧ phases.LetBy request route ∧
        preValidation server services tables request route
          (candidateAuthentication mac services now request.headers) = .ok principal := by
  unfold serve
  cases csrfRejection mac request (csrfOptions services) with
  | some rejection => exact ⟨nofun, fun passed => nomatch passed.1⟩
  | none =>
      dsimp only
      generalize preValidation server services tables request route _ = found
      constructor
      · intro passed
        split at passed
        · cases passed
        · rename_i hooks
          split at passed
          · cases passed
          · rename_i parsed
            cases found with
            | error refused => cases passed
            | ok first =>
                dsimp only at passed
                split at passed
                · cases passed
                · rename_i valid
                  exact ⟨rfl, ⟨by simpa using hooks, by simpa using parsed, by simpa using valid⟩,
                    passed⟩
      · rintro ⟨_, ⟨hooks, parsed, valid⟩, rfl⟩
        simp only [hooks, parsed, valid, Bool.true_eq_false, if_false]

/-- What the hooks before validation let by. -/
private theorem preValidation_eq_ok_iff {server : Server} {services : ServerServices}
    {tables : StaffTables} {request : CsrfRequest} {route : RouteOptions}
    (registered : route ∈ server.routes) (served : request.method ∈ route.methods)
    {existing : Option CandidatePrincipal} {principal : Option Principal} :
    preValidation server services tables request route existing = .ok principal ↔
      (∃ candidate, existing = some candidate ∧ sessionOf services request.headers = none ∧
          principal = some (.candidate candidate) ∧ Listed server route request.method .none) ∨
        (existing = none ∧ sessionOf services request.headers = none ∧ principal = none ∧
          Listed server route request.method .none) ∨
        ∃ subject, existing = none ∧ sessionOf services request.headers = some subject ∧
          principal = some (.staff (staffOf tables subject)) ∧
          (Listed server route request.method .none ∨ Listed server route request.method .session ∨
            ∃ permission ∈ PERMISSIONS, route.authorisation = some (.permission permission) ∧
              Granted tables subject.userId subject.orgId permission) := by
  have admitted (found : Option Principal) :
      (match authorise server.index (matched route request.method found) with
        | .error denial => (.error (.denied denial) : Except Refused (Option Principal))
        | .ok () => .ok found) = .ok principal ↔
        principal = found ∧ (Listed server route request.method .none ∨
          (∃ staff, found = some (.staff staff)) ∧ Listed server route request.method .session ∨
          ∃ permission ∈ PERMISSIONS, route.authorisation = some (.permission permission) ∧
            ∃ staff, found = some (.staff staff) ∧ permission ∈ staff.permissions) := by
    rw [← letsIn_iff, ← authorise_eq_ok registered served]
    cases authorise server.index (matched route request.method found) with
    | error denial => simp
    | ok _ => simp [eq_comm]
  unfold preValidation
  rw [staffAuthentication_eq]
  cases existing with
  | some candidate =>
      cases sessionOf services request.headers with
      | some subject => simp
      | none =>
          simp only
          rw [admitted]
          simp
  | none =>
      simp only
      rw [admitted]
      cases sessionOf services request.headers with
      | none => simp
      | some subject => simp [mem_permissions_staffOf]

/-- A request reaches the handler of its route exactly when the cross-site check passes it, no phase
of the framework answers it, and one of these holds: it brings an attempt's credential and no session,
and the route is open; it brings neither, and the route is open; it brings a session alone, and the
route is open, or open to sessions, or asks for a permission granted to the session's user in the
session's organisation. The handler sees the principal of the one credential. -/
theorem request_reaches (mac : Mac) (phases : Phases) (server : Server) (services : ServerServices)
    (tables : StaffTables) (now : EpochMillis) (request : CsrfRequest) (route : RouteOptions)
    (registered : route ∈ server.routes) (served : request.method ∈ route.methods)
    (principal : Option Principal) :
    serve mac phases server services tables now request route = .ok principal ↔
      csrfRejection mac request (csrfOptions services) = none ∧ phases.LetBy request route ∧
      ((∃ candidate, candidateAuthentication mac services now request.headers = some candidate ∧
          sessionOf services request.headers = none ∧ principal = some (.candidate candidate) ∧
          Listed server route request.method .none) ∨
        (candidateAuthentication mac services now request.headers = none ∧
          sessionOf services request.headers = none ∧ principal = none ∧
          Listed server route request.method .none) ∨
        ∃ subject, candidateAuthentication mac services now request.headers = none ∧
          sessionOf services request.headers = some subject ∧
          principal = some (.staff (staffOf tables subject)) ∧
          (Listed server route request.method .none ∨ Listed server route request.method .session ∨
            ∃ permission ∈ PERMISSIONS, route.authorisation = some (.permission permission) ∧
              Granted tables subject.userId subject.orgId permission)) := by
  rw [serve_eq_ok_iff, preValidation_eq_ok_iff registered served]

private theorem graderId_canonical :
    UUID (js "5f0c2d84-9e1b-4b6a-8c37-2a41d09be6f3") = true ∧
      (js "5f0c2d84-9e1b-4b6a-8c37-2a41d09be6f3").map lowerAscii =
        js "5f0c2d84-9e1b-4b6a-8c37-2a41d09be6f3" := by decide +kernel

private theorem employerId_canonical :
    UUID (js "c27a6b10-3d58-4e92-b0f4-7e85a1d3c946") = true ∧
      (js "c27a6b10-3d58-4e92-b0f4-7e85a1d3c946").map lowerAscii =
        js "c27a6b10-3d58-4e92-b0f4-7e85a1d3c946" := by decide +kernel

private def graderId : RowId := ⟨js "5f0c2d84-9e1b-4b6a-8c37-2a41d09be6f3", graderId_canonical⟩

private def employerId : RowId := ⟨js "c27a6b10-3d58-4e92-b0f4-7e85a1d3c946", employerId_canonical⟩

/-- A user of one organisation with a role of that organisation. -/
private def staffTables : StaffTables where
  users := [⟨graderId, employerId⟩]
  userRoles := [⟨graderId, some employerId⟩]
  userRolePermissions := [⟨graderId, js "question.read"⟩]
  userRoleAssignments := [⟨graderId, graderId⟩]

private def bankRoute : RouteOptions :=
  ⟨[js "GET"], js "/api/v1/questions", some (.permission (js "question.read"))⟩

private theorem bank_indexed : indexPublicRoutes [] = .ok [] := rfl

private theorem bank_registered :
    [bankRoute].foldlM (onRoute []) [] = .ok [recordOf [] bankRoute (js "GET")] := rfl

private def bankServer : Server where
  publicRoutes := []
  index := []
  indexed := bank_indexed
  routes := [bankRoute]
  table := [recordOf [] bankRoute (js "GET")]
  registered := bank_registered

/-- A store of one session. -/
private def oneSession : GetSession := fun headers =>
  if headers (js "cookie") = some (js "assaybank.session_token=Zb4q0") then
    some ⟨some (js "Zb4q0"), some (some (.string graderId.text), some (.string employerId.text))⟩
  else none

private def sessionRequest : CsrfRequest where
  method := js "GET"
  url := js "/api/v1/questions"
  headers name :=
    if name = js "cookie" then some (.one (js "assaybank.session_token=Zb4q0")) else none

/-- A limiter that counts the request among those of its minute, and a route of no schema. -/
private def limitedPhases (counted : Nat) : Phases where
  onRequest _ _ := decide (counted ≤ 600)
  parsing _ _ := true
  validation _ _ := true

/-- The bank, read in a session whose user may read it, as the last request of its minute and as one
too many. -/
theorem request_reaches_example :
    serve keyedMac (limitedPhases 600) bankServer
        ⟨[], none, some ⟨js "a secret", false, oneSession⟩⟩ staffTables 0 sessionRequest bankRoute =
        .ok (some (.staff (staffOf staffTables ⟨graderId.text, employerId.text, js "Zb4q0"⟩))) ∧
      ∀ principal, serve keyedMac (limitedPhases 601) bankServer
        ⟨[], none, some ⟨js "a secret", false, oneSession⟩⟩ staffTables 0 sessionRequest bankRoute ≠
        .ok principal := by
  constructor
  · refine (request_reaches keyedMac (limitedPhases 600) bankServer _ staffTables 0 sessionRequest
      bankRoute (List.mem_singleton_self _) (List.mem_singleton_self _) _).mpr
      ⟨by decide +kernel, ⟨rfl, rfl, rfl⟩, .inr (.inr
        ⟨⟨graderId.text, employerId.text, js "Zb4q0"⟩, rfl, ?_, rfl, .inr (.inr
          ⟨js "question.read", by decide, rfl, ?_⟩)⟩)⟩
    · decide +kernel
    · exact ⟨⟨graderId, employerId⟩, List.mem_singleton_self _, readUuid_text graderId,
        readUuid_text employerId, ⟨graderId, some employerId⟩, List.mem_singleton_self _, .inr rfl,
        List.mem_singleton_self _, List.mem_singleton_self _⟩
  · intro principal passed
    have through := (request_reaches keyedMac (limitedPhases 601) bankServer _ staffTables 0
      sessionRequest bankRoute (List.mem_singleton_self _) (List.mem_singleton_self _) _).mp passed
    exact absurd through.2.1.onRequest (by decide)

end Assaybank.Api.RequestPath
