import Assaybank.Library.Basic
import Assaybank.Library.OrderedMap
import Assaybank.Runtime.Lines

/-!
Owns who may call a route: the permissions of a principal (`packages/auth/src/permissions.ts`), the
list of routes that need none, the table a registration leaves, and the check made before a handler
(`apps/api/src/authorisation.ts`).

Contract: of every server that registers, the table lists every method of every route, what it
records is what is enforced, and a principal passes exactly where the list of public routes or a
permission it holds says so (`authorisation_table`).

It does not own how a request comes by its principal, nor which route answers it: the router is
given the routes in the order they are declared, with the `HEAD` of every `GET` among them.
-/

namespace Assaybank.Api.Authorisation

open Assaybank.Runtime Assaybank.Library

/-! ### Permissions -/

/-- A key, as data: one from the database may be any string. -/
abbrev Permission := JsString

def PERMISSIONS : List Permission :=
  [js "question.read", js "question.write", js "question.publish", js "assessment.write",
    js "invite.send", js "attempt.read", js "attempt.grade", js "attempt.void",
    js "interview.host", js "report.export", js "org.admin"]

def isPermission (value : Permission) : Bool := PERMISSIONS.contains value

/-- A member of staff. `permissions` lists the members of a set. -/
structure StaffPrincipal where
  userId : JsString
  orgId : JsString
  permissions : List Permission
deriving DecidableEq

/-- A candidate, scoped to one attempt. -/
structure CandidatePrincipal where
  attemptId : JsString
  orgId : JsString
deriving DecidableEq

inductive Principal where
  | staff (principal : StaffPrincipal)
  | candidate (principal : CandidatePrincipal)
deriving DecidableEq

/-- May this principal perform this action? -/
def can (principal : Principal) (permission : Permission) : Bool :=
  if isPermission permission then
    match principal with
    | .candidate _ => false
    | .staff staff => staff.permissions.contains permission
  else false

/-! ### What a route says -/

/-- What a route on the list still requires. -/
inductive PublicCredential where
  | none
  | session
deriving DecidableEq

inductive RouteAuthorisation where
  | permission (permission : Permission)
  | «public» (credential : PublicCredential) (reason : JsString)
deriving DecidableEq

structure PublicRoute where
  method : JsString
  url : JsString
  credential : PublicCredential
  reason : JsString
deriving DecidableEq

def API_BASE_PATH : JsString := js "/api/v1"

def PUBLIC_ROUTES : List PublicRoute :=
  [⟨js "GET", js "/healthz", .none,
      js "Liveness, probed by the orchestrator, which holds no credential and must not need one."⟩,
    ⟨js "GET", js "/readyz", .none, js
      "Readiness, probed by the load balancer; it reports dependency status, never data."⟩,
    ⟨js "GET", js "/metrics", .none,
      js "Scraped by the collector on the pod network; the exposition is aggregate and " ++
        js "cardinality-guarded, so it carries no tenant row (docs/12 §6)."⟩,
    ⟨js "GET", js "/openapi.json", .none,
      js "The published contract. It describes the API; it contains no organisation data."⟩,
    ⟨js "OPTIONS", js "*", .none,
      js "The CORS preflight registered by @fastify/cors. A browser sends it without " ++
        js "credentials by definition, and it answers with headers rather than a body."⟩,
    ⟨js "POST", API_BASE_PATH ++ js "/auth/login", .none,
      js "Issues the session. Requiring one would be circular (docs/03 §1)."⟩,
    ⟨js "POST", API_BASE_PATH ++ js "/auth/oidc/start", .none,
      js "Begins the OIDC redirect, before any session exists (docs/03 §1)."⟩,
    ⟨js "GET", API_BASE_PATH ++ js "/auth/oidc/callback", .none,
      js "The identity provider redirects the browser here carrying a code, not a session; " ++
        js "the state parameter, not a permission, is what authorises it."⟩,
    ⟨js "POST", API_BASE_PATH ++ js "/candidate/redeem", .none,
      js "A candidate has no account. Redeeming an invitation token is how they obtain the " ++
        js "only credential they will ever hold (docs/03 §1); it is rate limited per address."⟩,
    ⟨js "POST", API_BASE_PATH ++ js "/auth/logout", .session,
      js "Ends the caller’s own session. There is no other actor and no action to name."⟩,
    ⟨js "GET", API_BASE_PATH ++ js "/auth/me", .session,
      js "Returns the caller’s own user, organisation and permission set. The subject is the " ++
        js "session itself, so a permission gating it would have to be held by everyone."⟩]

/-- `toUpperCase` on a method, which is ASCII. -/
def toUpperCase (method : JsString) : JsString :=
  method.map fun c => if isLower c then c - 32 else c

/-- The key of a method and path. `HEAD` folds onto `GET`. -/
def routeKey (method url : JsString) : JsString :=
  let upper := toUpperCase method
  (if upper = js "HEAD" then js "GET" else upper) ++ js " " ++ url

/-- One entry of the list, unless it gives no reason or comes twice. -/
def indexPublicRoute (index : List (JsString × PublicRoute)) (route : PublicRoute) :
    Except JsString (List (JsString × PublicRoute)) :=
  let key := routeKey route.method route.url
  if trim route.reason = [] then
    .error (js "The public-route entry for " ++ route.method ++ js " " ++ route.url ++
      js " has no reason. An unexplained exemption is indistinguishable from a mistake six " ++
      js "months later.")
  else if (index.lookup key).isSome then
    .error (key ++ js " appears twice in the public-route allow-list. Two reasons for one route " ++
      js "means one of them was never reviewed.")
  else .ok (setEntry index key route)

def indexPublicRoutes (routes : List PublicRoute) :
    Except JsString (List (JsString × PublicRoute)) :=
  routes.foldlM indexPublicRoute []

def publicAuthorisation (entry : PublicRoute) : RouteAuthorisation :=
  .public entry.credential entry.reason

/-! ### Registration -/

/-- A route as it is declared: its methods, its path and the declaration in its `config`. -/
structure RouteOptions where
  methods : List JsString
  url : JsString
  authorisation : Option RouteAuthorisation

/-- One row of the route table. -/
structure RouteAuthorisationRecord where
  method : JsString
  url : JsString
  declaration : Option RouteAuthorisation
deriving DecidableEq

/-- Whether a route declares itself public. -/
def declaresPublic : Option RouteAuthorisation → Bool
  | some (.public _ _) => true
  | _ => false

/-- The key a declaration names. -/
def namedPermission : RouteAuthorisation → Permission
  | .permission permission => permission
  | .public _ _ => []

/-- The row of one method of a route. -/
def recordMethod (index : List (JsString × PublicRoute)) (route : RouteOptions)
    (table : List RouteAuthorisationRecord) (method : JsString) :
    Except JsString (List RouteAuthorisationRecord) :=
  match route.authorisation, index.lookup (routeKey method route.url) with
  | some declared, some _ =>
      .error (method ++ js " " ++ route.url ++ js " both requires \"" ++ namedPermission declared ++
        js "\" and appears in PUBLIC_ROUTES. One of those two statements is being ignored, and " ++
        js "which one is not obvious from either place.")
  | declared, allowListed =>
      .ok (table ++ [⟨method, route.url, declared.or (allowListed.map publicAuthorisation)⟩])

/-- The hook run as a route is declared. -/
def onRoute (index : List (JsString × PublicRoute)) (table : List RouteAuthorisationRecord)
    (route : RouteOptions) : Except JsString (List RouteAuthorisationRecord) :=
  if declaresPublic route.authorisation then
    .error (joinWith (js ",") route.methods ++ js " " ++ route.url ++
      js " declares itself public. \"No permission required\" is said once, in PUBLIC_ROUTES, " ++
      js "where it is reviewed as a list rather than inside the diff of the route that wanted it.")
  else route.methods.foldlM (recordMethod index route) table

/-- A server that registered: the list it was given, and the routes declared on it in order. -/
structure Server where
  publicRoutes : List PublicRoute
  index : List (JsString × PublicRoute)
  indexed : indexPublicRoutes publicRoutes = .ok index
  routes : List RouteOptions
  table : List RouteAuthorisationRecord
  registered : routes.foldlM (onRoute index) [] = .ok table

structure AuthorisationReport where
  routes : List RouteAuthorisationRecord
  undeclared : List RouteAuthorisationRecord

def authorisationReport (server : Server) : AuthorisationReport :=
  ⟨server.table, server.table.filter fun record => decide (record.declaration = none)⟩

/-! ### The check -/

/-- A request after routing: what it matched, and whose it is. -/
structure RoutedRequest where
  is404 : Bool
  method : JsString
  url : Option JsString
  declared : Option RouteAuthorisation
  principal : Option Principal

/-- The declaration for a request that matched no route. -/
def NO_ROUTE : RouteAuthorisation :=
  .public .none
    (js "No route matched. The not-found handler reads nothing and answers everyone alike.")

/-- The declaration in force for a request. -/
def authorisationFor (request : RoutedRequest) (index : List (JsString × PublicRoute)) :
    Option RouteAuthorisation :=
  if request.is404 then some NO_ROUTE
  else
    match request.declared with
    | some declared => some declared
    | none => (index.lookup (routeKey request.method (request.url.getD []))).map publicAuthorisation

/-- Why a request was refused. -/
inductive AuthorisationDenialReason where
  | undeclared
  | unauthenticated
  | permission
  | principalKind
deriving DecidableEq

/-- The two refusals, with their statuses and messages. -/
inductive AccessError where
  | unauthenticated
  | forbidden
deriving DecidableEq

def AccessError.status : AccessError → Nat
  | .unauthenticated => 401
  | .forbidden => 403

def AccessError.message : AccessError → JsString
  | .unauthenticated => js "Authentication is required."
  | .forbidden => js "You do not have permission to perform this action."

/-- A refusal: what is counted and logged, and what is answered. That of an undeclared route is
logged with its method and path alone. -/
structure Denial where
  reason : AuthorisationDenialReason
  method : JsString
  routeClass : JsString
  requiredPermission : Option Permission
  principalKind : Option JsString
  error : AccessError
deriving DecidableEq

def principalKind : Option Principal → JsString
  | none => js "none"
  | some (.staff _) => js "staff"
  | some (.candidate _) => js "candidate"

def refuse (request : RoutedRequest) (reason : AuthorisationDenialReason)
    (declaration : Option RouteAuthorisation) : Denial where
  reason := reason
  method := request.method
  routeClass := request.url.getD (js "unmatched")
  requiredPermission :=
    match declaration with
    | some (.permission permission) => some permission
    | _ => none
  principalKind := if reason = .undeclared then none else some (principalKind request.principal)
  error := if reason = .unauthenticated then .unauthenticated else .forbidden

def enforce (request : RoutedRequest) (declaration : Option RouteAuthorisation) :
    Except Denial Unit :=
  match declaration with
  | none => .error (refuse request .undeclared declaration)
  | some (.public .none _) => .ok ()
  | some (.public .session _) =>
      match request.principal with
      | none => .error (refuse request .unauthenticated declaration)
      | some (.staff _) => .ok ()
      | some (.candidate _) => .error (refuse request .principalKind declaration)
  | some (.permission permission) =>
      match request.principal with
      | none => .error (refuse request .unauthenticated declaration)
      | some principal =>
          if can principal permission then .ok ()
          else .error (refuse request .permission declaration)

/-- The `preValidation` hook. -/
def authorise (index : List (JsString × PublicRoute)) (request : RoutedRequest) :
    Except Denial Unit :=
  enforce request (authorisationFor request index)

/-! ### The list -/

/-- What an index holds of the entries it was made from. -/
private def Indexes (entries : List PublicRoute) (index : List (JsString × PublicRoute)) : Prop :=
  ∀ key entry, index.lookup key = some entry ↔
    entry ∈ entries ∧ routeKey entry.method entry.url = key

private theorem indexes_nil : Indexes [] [] := by
  intro key entry
  constructor
  · intro found
    cases found
  · intro inside
    cases inside.1

private theorem indexes_step {entries : List PublicRoute} {index after : List (JsString × PublicRoute)}
    {route : PublicRoute} (holds : Indexes entries index)
    (stepped : indexPublicRoute index route = .ok after) : Indexes (entries ++ [route]) after := by
  unfold indexPublicRoute at stepped
  simp only at stepped
  split at stepped
  · cases stepped
  split at stepped
  · cases stepped
  rename_i unknown
  cases stepped
  have fresh : index.lookup (routeKey route.method route.url) = none :=
    Option.not_isSome_iff_eq_none.mp unknown
  intro key entry
  rw [lookup_setEntry, List.mem_append, List.mem_singleton]
  by_cases here : key = routeKey route.method route.url
  · rw [if_pos here]
    constructor
    · intro same
      cases Option.some.inj same
      exact ⟨.inr rfl, here.symm⟩
    · rintro ⟨earlier | same, named⟩
      · have found := (holds key entry).mpr ⟨earlier, named⟩
        rw [here, fresh] at found
        cases found
      · rw [same]
  · rw [if_neg here, holds key entry]
    constructor
    · intro earlier
      exact ⟨.inl earlier.1, earlier.2⟩
    · rintro ⟨earlier | same, named⟩
      · exact ⟨earlier, named⟩
      · rw [same] at named
        exact absurd named.symm here

private theorem indexes_from (entries : List PublicRoute) {rest : List PublicRoute}
    {index after : List (JsString × PublicRoute)} (holds : Indexes entries index)
    (folded : rest.foldlM indexPublicRoute index = .ok after) : Indexes (entries ++ rest) after := by
  induction rest generalizing entries index with
  | nil =>
      cases folded
      rw [List.append_nil]
      exact holds
  | cons route rest inductionHypothesis =>
      rw [List.foldlM_cons] at folded
      obtain ⟨middle, stepped, later⟩ := bind_eq_ok.mp folded
      have final := inductionHypothesis (entries ++ [route]) (indexes_step holds stepped) later
      rw [List.append_assoc] at final
      exact final

/-- A key is found exactly where an entry of the list has it. -/
theorem lookup_indexPublicRoutes {routes : List PublicRoute}
    {index : List (JsString × PublicRoute)} (indexed : indexPublicRoutes routes = .ok index)
    (key : JsString) (entry : PublicRoute) :
    index.lookup key = some entry ↔ entry ∈ routes ∧ routeKey entry.method entry.url = key :=
  indexes_from [] indexes_nil indexed key entry

private theorem indexes_all {entries rest : List PublicRoute} {index : List (JsString × PublicRoute)}
    (holds : Indexes entries index) (reasons : ∀ entry ∈ rest, trim entry.reason ≠ [])
    (distinct : ((entries ++ rest).map fun entry => routeKey entry.method entry.url).Nodup) :
    ∃ after, rest.foldlM indexPublicRoute index = .ok after := by
  induction rest generalizing entries index with
  | nil => exact ⟨index, rfl⟩
  | cons route rest inductionHypothesis =>
      have fresh : ¬(index.lookup (routeKey route.method route.url)).isSome = true := by
        intro known
        obtain ⟨entry, found⟩ := Option.isSome_iff_exists.mp known
        obtain ⟨earlier, same⟩ := (holds _ entry).mp found
        rw [List.map_append, List.nodup_append] at distinct
        exact distinct.2.2 _ (List.mem_map_of_mem earlier) _
          (List.mem_map_of_mem List.mem_cons_self) same
      have stepped : indexPublicRoute index route =
          .ok (setEntry index (routeKey route.method route.url) route) := by
        unfold indexPublicRoute
        simp only
        rw [if_neg (reasons route List.mem_cons_self), if_neg fresh]
      rw [← List.singleton_append, ← List.append_assoc] at distinct
      obtain ⟨after, folded⟩ := inductionHypothesis (indexes_step holds stepped)
        (fun entry later => reasons entry (List.mem_cons_of_mem _ later)) distinct
      refine ⟨after, ?_⟩
      rw [List.foldlM_cons, stepped]
      exact folded

/-- A list of different routes, each with a reason, is taken. -/
theorem indexPublicRoutes_ok {routes : List PublicRoute}
    (reasons : ∀ entry ∈ routes, trim entry.reason ≠ [])
    (distinct : (routes.map fun entry => routeKey entry.method entry.url).Nodup) :
    ∃ index, indexPublicRoutes routes = .ok index :=
  indexes_all indexes_nil reasons distinct

/-! ### The table -/

/-- The row a method of a route leaves. -/
def recordOf (index : List (JsString × PublicRoute)) (route : RouteOptions) (method : JsString) :
    RouteAuthorisationRecord :=
  ⟨method, route.url,
    route.authorisation.or ((index.lookup (routeKey method route.url)).map publicAuthorisation)⟩

/-- A declared method is not on the list. -/
private def Apart (index : List (JsString × PublicRoute)) (route : RouteOptions)
    (method : JsString) : Prop :=
  route.authorisation = none ∨ index.lookup (routeKey method route.url) = none

private theorem foldlM_appends {α β ε : Type} {step : List α → β → Except ε (List α)}
    (out : β → List α) {Fit : β → Prop} (appends : ∀ {before item after},
      step before item = .ok after → after = before ++ out item ∧ Fit item)
    {items : List β} {start after : List α} (folded : items.foldlM step start = .ok after) :
    after = start ++ items.flatMap out ∧ ∀ item ∈ items, Fit item := by
  induction items generalizing start with
  | nil =>
      cases folded
      exact ⟨(List.append_nil _).symm, fun item inside => by cases inside⟩
  | cons item rest inductionHypothesis =>
      rw [List.foldlM_cons] at folded
      obtain ⟨middle, stepped, later⟩ := bind_eq_ok.mp folded
      obtain ⟨rfl, fit⟩ := appends stepped
      obtain ⟨rfl, fits⟩ := inductionHypothesis later
      exact ⟨by rw [List.flatMap_cons, List.append_assoc], List.forall_mem_cons.mpr ⟨fit, fits⟩⟩

private theorem recordMethod_ok {index : List (JsString × PublicRoute)} {route : RouteOptions}
    {table after : List RouteAuthorisationRecord} {method : JsString}
    (recorded : recordMethod index route table method = .ok after) :
    after = table ++ [recordOf index route method] ∧ Apart index route method := by
  unfold recordMethod at recorded
  split at recorded
  · cases recorded
  · rename_i apart
    cases recorded
    refine ⟨rfl, ?_⟩
    unfold Apart
    cases declared : route.authorisation with
    | none => exact .inl rfl
    | some authorisation =>
        cases listed : index.lookup (routeKey method route.url) with
        | none => exact .inr rfl
        | some entry => exact absurd listed (apart authorisation entry declared)

private theorem onRoute_ok {index : List (JsString × PublicRoute)}
    {table after : List RouteAuthorisationRecord} {route : RouteOptions}
    (declared : onRoute index table route = .ok after) :
    after = table ++ route.methods.map (recordOf index route) ∧
      declaresPublic route.authorisation = false ∧ ∀ method ∈ route.methods,
        Apart index route method := by
  unfold onRoute at declared
  split_ifs at declared with itself
  obtain ⟨whole, apart⟩ := foldlM_appends (fun method => [recordOf index route method])
    recordMethod_ok declared
  rw [← List.map_eq_flatMap] at whole
  exact ⟨whole, by simpa using itself, apart⟩

/-- What a registration leaves, and what it made sure of. -/
private theorem registered_table (server : Server) :
    server.table =
        server.routes.flatMap (fun route => route.methods.map (recordOf server.index route)) ∧
      ∀ route ∈ server.routes, declaresPublic route.authorisation = false ∧
        ∀ method ∈ route.methods, Apart server.index route method := by
  obtain ⟨whole, checked⟩ := foldlM_appends
    (fun route => route.methods.map (recordOf server.index route)) onRoute_ok server.registered
  exact ⟨whole, checked⟩

/-! ### Who passes -/

/-- A request that a method of a route answers. -/
def matched (route : RouteOptions) (method : JsString) (principal : Option Principal) :
    RoutedRequest :=
  ⟨false, method, some route.url, route.authorisation, principal⟩

/-- What lets a principal in: an entry of the list that asks for no credential or for a session, or
a known permission the route names and the principal holds. -/
def LetsIn (server : Server) (route : RouteOptions) (method : JsString)
    (principal : Option Principal) : Prop :=
  (∃ entry ∈ server.publicRoutes, routeKey entry.method entry.url = routeKey method route.url ∧
    (entry.credential = .none ∨ ∃ staff, principal = some (.staff staff))) ∨
  ∃ permission ∈ PERMISSIONS, route.authorisation = some (.permission permission) ∧
    ∃ staff, principal = some (.staff staff) ∧ permission ∈ staff.permissions

/-- What is enforced for a method of a route is what the table records of it. -/
theorem authorisationFor_matched (index : List (JsString × PublicRoute)) (route : RouteOptions)
    (method : JsString) (principal : Option Principal) :
    authorisationFor (matched route method principal) index =
      (recordOf index route method).declaration := by
  unfold authorisationFor matched recordOf
  cases route.authorisation with
  | none => rfl
  | some declared => rfl

private theorem can_staff {permission : Permission} {principal : Principal} :
    can principal permission = true ↔ permission ∈ PERMISSIONS ∧
      ∃ staff, principal = .staff staff ∧ permission ∈ staff.permissions := by
  unfold can isPermission
  by_cases known : permission ∈ PERMISSIONS
  · rw [if_pos (List.contains_iff_mem.mpr known)]
    cases principal with
    | candidate candidate =>
        constructor
        · intro impossible
          cases impossible
        · rintro ⟨_, staff, impossible, _⟩
          cases impossible
    | staff staff =>
        constructor
        · intro held
          exact ⟨known, staff, rfl, List.contains_iff_mem.mp held⟩
        · rintro ⟨_, other, same, held⟩
          cases same
          exact List.contains_iff_mem.mpr held
  · rw [if_neg (mt List.contains_iff_mem.mp known)]
    constructor
    · intro impossible
      cases impossible
    · intro held
      exact absurd held.1 known

/-- The check, by the declarations it lets a principal pass. -/
theorem enforce_eq_ok {request : RoutedRequest} {declaration : Option RouteAuthorisation} :
    enforce request declaration = .ok () ↔
      (∃ reason, declaration = some (.public .none reason)) ∨
      (∃ reason staff, declaration = some (.public .session reason) ∧
        request.principal = some (.staff staff)) ∨
      ∃ permission principal, declaration = some (.permission permission) ∧
        request.principal = some principal ∧ can principal permission = true := by
  cases declaration with
  | none => simp [enforce]
  | some declaration =>
      cases declaration with
      | permission permission =>
          cases holder : request.principal with
          | none => simp [enforce, holder]
          | some principal => cases able : can principal permission <;> simp [enforce, holder, able]
      | «public» credential reason =>
          cases credential with
          | none => simp [enforce]
          | session =>
              cases holder : request.principal with
              | none => simp [enforce, holder]
              | some principal => cases principal <;> simp [enforce, holder]

/-- A refusal asks for a credential where one is required and none came, and forbids otherwise. -/
theorem enforce_eq_error {request : RoutedRequest} {declaration : Option RouteAuthorisation}
    {denial : Denial} (refused : enforce request declaration = .error denial) :
    denial.error = if declaration.isSome = true ∧ request.principal = none then .unauthenticated
      else .forbidden := by
  unfold enforce at refused
  split at refused
  · cases refused
    rfl
  · cases refused
  · split at refused <;> rename_i holder
    · cases refused
      rw [if_pos ⟨rfl, holder⟩]
      rfl
    · cases refused
    · cases refused
      rw [if_neg (by rw [holder]; simp)]
      rfl
  · split at refused <;> rename_i holder
    · cases refused
      rw [if_pos ⟨rfl, holder⟩]
      rfl
    · split at refused
      · cases refused
      · cases refused
        rw [if_neg (by rw [holder]; simp)]
        rfl

/-- On a route that registered, the check lets in whom the list or a permission lets in. -/
theorem authorise_eq_ok {server : Server} {route : RouteOptions} (registered : route ∈ server.routes)
    {method : JsString} (served : method ∈ route.methods) (principal : Option Principal) :
    authorise server.index (matched route method principal) = .ok () ↔
      LetsIn server route method principal := by
  obtain ⟨plain, apart⟩ := (registered_table server).2 route registered
  have listed := lookup_indexPublicRoutes server.indexed (routeKey method route.url)
  unfold authorise LetsIn
  rw [authorisationFor_matched, enforce_eq_ok]
  cases declared : route.authorisation with
  | some authorisation =>
      have unlisted : server.index.lookup (routeKey method route.url) = none :=
        (apart method served).resolve_left (by rw [declared]; exact Option.some_ne_none _)
      have record : (recordOf server.index route method).declaration = some authorisation := by
        unfold recordOf
        rw [declared]
        rfl
      rw [record]
      cases authorisation with
      | «public» credential reason =>
          rw [declared] at plain
          cases plain
      | permission permission =>
          constructor
          · rintro (⟨_, impossible⟩ | ⟨_, _, impossible, _⟩ | ⟨known, holder, same, mine, able⟩)
            · cases impossible
            · cases impossible
            · cases same
              obtain ⟨inside, staff, kind, held⟩ := can_staff.mp able
              have holds : principal = some holder := mine
              exact .inr ⟨permission, inside, rfl, staff, by rw [holds, kind], held⟩
          · rintro (⟨entry, inside, named, _⟩ | ⟨known, inside, same, staff, mine, held⟩)
            · rw [(listed entry).mpr ⟨inside, named⟩] at unlisted
              cases unlisted
            · cases same
              exact .inr (.inr ⟨permission, .staff staff, rfl, mine,
                can_staff.mpr ⟨inside, staff, rfl, held⟩⟩)
  | none =>
      have record : (recordOf server.index route method).declaration =
          (server.index.lookup (routeKey method route.url)).map publicAuthorisation := by
        unfold recordOf
        rw [declared]
        rfl
      rw [record]
      constructor
      · rintro (⟨reason, found⟩ | ⟨reason, staff, found, mine⟩ | ⟨permission, _, found, _⟩)
        · obtain ⟨entry, here, same⟩ := Option.map_eq_some_iff.mp found
          obtain ⟨inside, named⟩ := (listed entry).mp here
          exact .inl ⟨entry, inside, named, .inl (RouteAuthorisation.public.inj same).1⟩
        · obtain ⟨entry, here, same⟩ := Option.map_eq_some_iff.mp found
          obtain ⟨inside, named⟩ := (listed entry).mp here
          exact .inl ⟨entry, inside, named, .inr ⟨staff, mine⟩⟩
        · obtain ⟨entry, _, same⟩ := Option.map_eq_some_iff.mp found
          cases same
      · rintro (⟨entry, inside, named, asks⟩ | ⟨permission, _, impossible, _⟩)
        · rw [(listed entry).mpr ⟨inside, named⟩]
          cases credential : entry.credential with
          | none =>
              refine .inl ⟨entry.reason, ?_⟩
              rw [Option.map_some, publicAuthorisation, credential]
          | session =>
              obtain ⟨staff, mine⟩ := asks.resolve_left fun free => by
                rw [credential] at free
                cases free
              refine .inr (.inl ⟨entry.reason, staff, ?_, mine⟩)
              rw [Option.map_some, publicAuthorisation, credential]
        · cases impossible

/-- The table has a row for every method of every route, in order. The rows without a declaration
are those of the methods that declare nothing and are not on the list, and no principal passes on
them. On every other one a principal passes exactly where the list, or a permission it holds, lets
it in, and is asked for a credential exactly where it brought none. -/
theorem authorisation_table (server : Server) :
    (authorisationReport server).routes =
        server.routes.flatMap (fun route => route.methods.map (recordOf server.index route)) ∧
      ∀ route ∈ server.routes, ∀ method ∈ route.methods,
        let record := recordOf server.index route method
        record.method = method ∧ record.url = route.url ∧
          (record ∈ (authorisationReport server).undeclared ↔ route.authorisation = none ∧
            ∀ entry ∈ server.publicRoutes,
              routeKey entry.method entry.url ≠ routeKey method route.url) ∧
          ∀ principal,
            (authorise server.index (matched route method principal) = .ok () ↔
              LetsIn server route method principal) ∧
            ∀ denial, authorise server.index (matched route method principal) = .error denial →
              (denial.error = .unauthenticated ↔
                record ∉ (authorisationReport server).undeclared ∧ principal = none) := by
  obtain ⟨whole, _⟩ := registered_table server
  constructor
  · exact whole
  · intro route registered method served
    dsimp only
    have listed := lookup_indexPublicRoutes server.indexed (routeKey method route.url)
    have inside : recordOf server.index route method ∈ server.table := by
      rw [whole]
      exact List.mem_flatMap.mpr ⟨route, registered, List.mem_map_of_mem served⟩
    have undeclared : recordOf server.index route method ∈
        (authorisationReport server).undeclared ↔
          (recordOf server.index route method).declaration = none := by
      show _ ∈ server.table.filter _ ↔ _
      rw [List.mem_filter, decide_eq_true_eq, and_iff_right inside]
    refine ⟨rfl, rfl, ?_, fun principal => ⟨?_, ?_⟩⟩
    · rw [undeclared]
      show route.authorisation.or _ = none ↔ _
      rw [Option.or_eq_none_iff, Option.map_eq_none_iff]
      refine and_congr_right fun _ => ?_
      rw [Option.eq_none_iff_forall_ne_some]
      refine forall_congr' fun entry => ?_
      rw [Ne, listed entry, not_and]
    · exact authorise_eq_ok registered served principal
    · intro denial refused
      unfold authorise at refused
      rw [authorisationFor_matched] at refused
      rw [enforce_eq_error refused, undeclared, ← Ne, Option.ne_none_iff_isSome]
      by_cases asked : (recordOf server.index route method).declaration.isSome = true ∧
          (matched route method principal).principal = none
      · rw [if_pos asked]
        exact iff_of_true rfl asked
      · rw [if_neg asked]
        exact iff_of_false (fun impossible => by cases impossible) asked

private def listedIndex : List (JsString × PublicRoute) :=
  (indexPublicRoutes PUBLIC_ROUTES).toOption.getD []

private theorem eq_ok_getD {A : Type} {outcome : Except JsString A} (default : A)
    (ends : outcome.toOption.isSome = true) : outcome = .ok (outcome.toOption.getD default) := by
  cases outcome with
  | error refusal => cases ends
  | ok answer => rfl

private theorem routes_explained : ∀ entry ∈ PUBLIC_ROUTES, ¬entry.reason.all isSpace = true := by
  decide +kernel

private theorem listedIndex_indexed : indexPublicRoutes PUBLIC_ROUTES = .ok listedIndex := by
  obtain ⟨index, indexed⟩ := indexPublicRoutes_ok
    (fun entry listed => mt trim_eq_nil.mp (routes_explained entry listed)) (by decide +kernel)
  exact eq_ok_getD [] (by rw [indexed]; rfl)

private def probeRoute : RouteOptions := ⟨[js "GET", js "HEAD"], js "/healthz", none⟩

private def logoutRoute : RouteOptions := ⟨[js "POST"], js "/api/v1/auth/logout", none⟩

/-- A route that declares nothing and is not on the list. -/
private def forgottenRoute : RouteOptions := ⟨[js "GET"], js "/api/v1/forgotten", none⟩

private def someRoutes : List RouteOptions := [probeRoute, logoutRoute, forgottenRoute]

private theorem someRoutes_registered : someRoutes.foldlM (onRoute listedIndex) [] =
    .ok ((someRoutes.foldlM (onRoute listedIndex) []).toOption.getD []) :=
  eq_ok_getD [] (by decide +kernel)

private def listedServer : Server where
  publicRoutes := PUBLIC_ROUTES
  index := listedIndex
  indexed := listedIndex_indexed
  routes := someRoutes
  table := (someRoutes.foldlM (onRoute listedIndex) []).toOption.getD []
  registered := someRoutes_registered

private theorem on_list : ∀ entry ∈ PUBLIC_ROUTES,
    routeKey entry.method entry.url ≠ routeKey (js "GET") forgottenRoute.url ∧
      (routeKey entry.method entry.url = routeKey (js "POST") logoutRoute.url →
        entry.credential = .session) := by
  decide +kernel

private theorem probe_on_list : ∃ entry ∈ PUBLIC_ROUTES,
    routeKey entry.method entry.url = routeKey (js "HEAD") probeRoute.url ∧
      entry.credential = .none := by
  decide +kernel

/-- Everybody reads the probe, also by `HEAD`, a session alone is ended, and nobody reads what was
forgotten. -/
theorem authorisation_table_example :
    authorise listedServer.index (matched probeRoute (js "HEAD") none) = .ok () ∧
      authorise listedServer.index (matched logoutRoute (js "POST") none) ≠ .ok () ∧
      ∀ principal, authorise listedServer.index (matched forgottenRoute (js "GET") principal) ≠
        .ok () := by
  have rows := (authorisation_table listedServer).2
  have probe := rows probeRoute List.mem_cons_self (js "HEAD")
    (List.mem_cons_of_mem _ List.mem_cons_self)
  have logout := rows logoutRoute (List.mem_cons_of_mem _ List.mem_cons_self) (js "POST")
    List.mem_cons_self
  have forgotten := rows forgottenRoute
    (List.mem_cons_of_mem _ (List.mem_cons_of_mem _ List.mem_cons_self)) (js "GET") List.mem_cons_self
  refine ⟨(probe.2.2.2 none).1.mpr ?_, fun passed => ?_, fun principal passed => ?_⟩
  · obtain ⟨entry, inside, named, free⟩ := probe_on_list
    exact .inl ⟨entry, inside, named, .inl free⟩
  · rcases (logout.2.2.2 none).1.mp passed with ⟨entry, inside, named, free | ⟨_, same⟩⟩ | named
    · rw [(on_list entry inside).2 named] at free
      cases free
    · cases same
    · obtain ⟨_, _, same, _⟩ := named
      cases same
  · rcases (forgotten.2.2.2 principal).1.mp passed with ⟨entry, inside, named, _⟩ | named
    · exact (on_list entry inside).1 named
    · obtain ⟨_, _, same, _⟩ := named
      cases same

end Assaybank.Api.Authorisation
