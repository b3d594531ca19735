import Assaybank.Credentials.AttemptAuth

/-!
Owns the cross-site check of a state-changing request (`apps/api/src/csrf.ts`), the token it asks
for (`apps/api/src/auth/csrf-token.ts`), and the reading of a cookie
(`apps/api/src/auth/oidc-org-cookie.ts`).

Contract: a request that carries a session passes exactly when the headers a browser sends name this
deployment, and the token in its header is the one in its jar and was signed for this session
(`csrf_passes_iff`).

It does not own what a browser sends, nor the minting of sessions.
-/

namespace Assaybank.Api.Csrf

open Assaybank.Runtime Assaybank.Library Assaybank.Auth
open Assaybank.Api.Authorisation Assaybank.Credentials.AttemptAuth

/-- The headers of a request, by their lower-case names. -/
abbrev Headers := JsString → Option HeaderValue

/-- A single header value: the first of a repeated one. -/
def header (headers : Headers) (name : JsString) : Option JsString :=
  match headers name with
  | none => none
  | some (.one text) => some text
  | some (.many texts) => texts.head?

/-! ### Cookies -/

/-- A part of a `Cookie` header, read for one name. -/
def cookiePart (name part : JsString) : Option JsString :=
  let trimmed := trim part
  match indexOf trimmed (js "=") 0 with
  | none => none
  | some eq => if 0 < eq ∧ slice trimmed 0 eq = name then some (trimmed.drop (eq + 1)) else none

def readCookie (cookies : Option JsString) (name : JsString) : Option JsString :=
  cookies.bind fun text => (splitOn (unit ';') text).findSome? (cookiePart name)

def STAFF_COOKIE_PREFIX : JsString := js "assaybank"

def staffCookieName (base : JsString) (secure : Bool) : JsString :=
  if secure then js "__Host-" ++ STAFF_COOKIE_PREFIX ++ js "." ++ base
  else STAFF_COOKIE_PREFIX ++ js "." ++ base

def sessionCookieName (secure : Bool) : JsString := staffCookieName (js "session_token") secure

def CSRF_HEADER : JsString := js "x-csrf-token"

def csrfCookieName (secure : Bool) : JsString :=
  if secure then js "__Host-assaybank.csrf_token" else js "assaybank.csrf_token"

/-! ### Tokens -/

def TOKEN_DOMAIN : JsString := js "assaybank.csrf-token.v1"

/-- The unit separator, between signed parts. -/
def SEPARATOR : JsString := [31]

/-- The signature over a nonce and the session it belongs to. -/
def sign (mac : Mac) (secret nonce sessionToken : JsString) : JsString :=
  mac.hmacHex secret (TOKEN_DOMAIN ++ SEPARATOR ++ nonce ++ SEPARATOR ++ sessionToken)

/-- A token for a session, from a nonce that was drawn. -/
def mintCsrfToken (mac : Mac) (secret sessionToken nonce : JsString) : JsString :=
  nonce ++ js "." ++ sign mac secret nonce sessionToken

def verifyCsrfToken (mac : Mac) (secret sessionToken : JsString) : Option JsString → Bool
  | none => false
  | some token =>
      match indexOf token (js ".") 0 with
      | none => false
      | some dot =>
          if dot = 0 then false
          else
            constantTimeEquals (sign mac secret (slice token 0 dot) sessionToken)
              (token.drop (dot + 1))

/-! ### The check -/

def STATE_CHANGING_METHODS : List JsString := [js "POST", js "PUT", js "PATCH", js "DELETE"]

def SAFE_FETCH_SITES : List JsString := [js "same-origin", js "none"]

def TOKEN_EXEMPT_PATHS : List JsString :=
  [API_BASE_PATH ++ js "/auth/login", API_BASE_PATH ++ js "/auth/oidc/start"]

inductive CsrfRejection where
  | origin
  | fetchSite
  | token
deriving DecidableEq

structure CsrfTokenOptions where
  secret : JsString
  secure : Bool

structure CsrfOptions where
  allowedOrigins : List JsString
  token : Option CsrfTokenOptions

/-- What the check reads of a request. -/
structure CsrfRequest where
  method : JsString
  url : JsString
  headers : Headers

/-- The path, without the query string. -/
def pathOf (url : JsString) : JsString :=
  match indexOf url (js "?") 0 with
  | none => url
  | some query => slice url 0 query

/-- The half that asks for a token, of requests that carry a session. -/
def tokenRejection (mac : Mac) (request : CsrfRequest) (cookies : JsString)
    (token : CsrfTokenOptions) : Option CsrfRejection :=
  match readCookie (some cookies) (sessionCookieName token.secure) with
  | none => none
  | some session =>
      if TOKEN_EXEMPT_PATHS.contains (pathOf request.url) then none
      else
        match header request.headers CSRF_HEADER,
            readCookie (some cookies) (csrfCookieName token.secure) with
        | some presented, some stored =>
            if presented ≠ stored then some .token
            else if verifyCsrfToken mac token.secret session (some presented) then none
            else some .token
        | _, _ => some .token

def csrfRejection (mac : Mac) (request : CsrfRequest) (options : CsrfOptions) :
    Option CsrfRejection :=
  if STATE_CHANGING_METHODS.contains (toUpperCase request.method) then
    match header request.headers (js "cookie") with
    | none => none
    | some cookies =>
        if (header request.headers (js "origin")).any fun origin =>
            !options.allowedOrigins.contains origin then some .origin
        else if (header request.headers (js "sec-fetch-site")).any fun site =>
            !SAFE_FETCH_SITES.contains site then some .fetchSite
        else
          match options.token with
          | none => none
          | some token => tokenRejection mac request cookies token
  else none

/-! ### What a token says -/

/-- A token that verifies is a nonce, a dot and the signature of the nonce and this session. -/
theorem verifyCsrfToken_iff {mac : Mac} {secret session token : JsString} :
    verifyCsrfToken mac secret session (some token) = true ↔
      ∃ nonce, nonce ≠ [] ∧ unit '.' ∉ nonce ∧ token = mintCsrfToken mac secret session nonce := by
  have dot : js "." = [unit '.'] := rfl
  constructor
  · intro verified
    rw [verifyCsrfToken] at verified
    split at verified
    · cases verified
    · rename_i place found
      rw [dot] at found
      split at verified
      · cases verified
      · rename_i later
        obtain ⟨absent, inside⟩ := indexOf_unit found
        refine ⟨slice token 0 place, ?_, absent, ?_⟩
        · intro empty
          have long := congrArg List.length empty
          rw [slice, List.drop_zero, List.length_take, List.length_nil] at long
          have short := congrArg List.length inside
          rw [List.length_append, List.length_cons] at short
          omega
        · have signed : sign mac secret (slice token 0 place) session = token.drop (place + 1) :=
            constantTimeEquals_hex (mac.hexadecimal _ _) verified
          rw [mintCsrfToken, signed, dot, List.append_assoc, List.singleton_append]
          exact inside
  · rintro ⟨nonce, filled, absent, rfl⟩
    have whole : mintCsrfToken mac secret session nonce =
        nonce ++ unit '.' :: sign mac secret nonce session := by
      rw [mintCsrfToken, dot, List.append_assoc, List.singleton_append]
    rw [verifyCsrfToken, whole, dot, indexOf_first absent]
    simp only
    rw [if_neg fun empty => filled (List.length_eq_zero_iff.mp empty), slice, List.take_left,
      List.drop_zero, ← List.drop_drop, List.drop_left, List.drop_one, List.tail_cons,
      constantTimeEquals, beq_self_eq_true]

/-- A token is minted for two sessions from nonces without a dot only where the signature cannot
tell the sessions apart. -/
private theorem mintCsrfToken_sessions {mac : Mac} {secret session other nonce drawn : JsString}
    (plain : unit '.' ∉ nonce) (drawnPlain : unit '.' ∉ drawn)
    (same : mintCsrfToken mac secret session nonce = mintCsrfToken mac secret other drawn) :
    sign mac secret drawn session = sign mac secret drawn other := by
  have dot : js "." = [unit '.'] := rfl
  rw [mintCsrfToken, mintCsrfToken, dot, List.append_assoc, List.append_assoc,
    List.singleton_append, List.singleton_append] at same
  have first (text rest : JsString) (absent : unit '.' ∉ text) :
      (text ++ unit '.' :: rest).takeWhile (· != unit '.') = text := by
    rw [List.takeWhile_append_of_pos]
    · rw [List.takeWhile_cons_of_neg (by simp), List.append_nil]
    · intro c inside
      rw [bne_iff_ne]
      rintro rfl
      exact absent inside
  have nonces := congrArg (List.takeWhile (· != unit '.')) same
  rw [first _ _ plain, first _ _ drawnPlain] at nonces
  subst nonces
  exact (List.cons.inj (List.append_cancel_left same)).2

/-! ### Jars -/

/-- A cookie as a browser holds one: no blank at an end of its name or value, and a nameless one has
no mark. -/
structure Cookie where
  name : JsString
  value : JsString
  nameUnits : unit '=' ∉ name ∧ unit ';' ∉ name
  valueUnit : unit ';' ∉ value
  unmarked : name = [] → unit '=' ∉ value
  nameTrimmed : trim name = name
  valueTrimmed : trim value = value

/-- A nameless cookie is sent as its value alone. -/
def Cookie.text (cookie : Cookie) : JsString :=
  if cookie.name = [] then cookie.value else cookie.name ++ js "=" ++ cookie.value

/-- The `Cookie` header of a jar. -/
def cookieHeader (jar : List Cookie) : JsString := joinWith (js "; ") (jar.map Cookie.text)

/-- The first cookie of a name. -/
def held (jar : List Cookie) (name : JsString) : Option JsString :=
  (jar.find? fun cookie => cookie.name = name).map Cookie.value

/-- A named cookie has no blank at an end of what is sent of it. -/
private theorem trim_named {name value left : JsString} (filled : name ≠ [])
    (blank : ∀ c ∈ left, isSpace c = true) (nameTrimmed : trim name = name)
    (valueTrimmed : trim value = value) :
    trim (left ++ (name ++ unit '=' :: value)) = name ++ unit '=' :: value := by
  have whole : name ++ unit '=' :: value ≠ [] := List.append_ne_nil_of_left_ne_nil filled _
  have starts : isSpace ((name ++ unit '=' :: value).head whole) = false := by
    rw [List.head_append_of_ne_nil filled]
    exact (trim_ends nameTrimmed filled).1
  have ends : isSpace ((name ++ unit '=' :: value).getLast whole) = false := by
    rw [List.getLast_append_of_ne_nil _ (List.cons_ne_nil _ _)]
    by_cases empty : value = []
    · subst empty
      decide
    · rw [List.getLast_cons empty]
      exact (trim_ends valueTrimmed empty).2
  have around : trim (left ++ (name ++ unit '=' :: value) ++ []) = name ++ unit '=' :: value :=
    trim_around (by rwa [List.append_nil]) whole starts ends
  rwa [List.append_nil] at around

private theorem cookiePart_text (cookie : Cookie) {name left : JsString} (asked : name ≠ [])
    (blank : ∀ c ∈ left, isSpace c = true) :
    cookiePart name (left ++ cookie.text) =
      if cookie.name = name then some cookie.value else none := by
  have mark : js "=" = [unit '='] := rfl
  rw [Cookie.text]
  by_cases nameless : cookie.name = []
  · have absent : unit '=' ∉ trim (left ++ cookie.value) := by
      intro inside
      rcases List.mem_append.mp (mem_of_mem_trim inside) with early | late
      · exact absurd (blank _ early) (by decide)
      · exact cookie.unmarked nameless late
    rw [if_pos nameless, cookiePart, mark, indexOf_absent absent, nameless, if_neg asked.symm]
  · have positive : 0 < cookie.name.length := List.length_pos_iff.mpr nameless
    rw [if_neg nameless, mark, List.append_assoc, List.singleton_append, cookiePart,
      trim_named nameless blank cookie.nameTrimmed cookie.valueTrimmed, mark,
      indexOf_first cookie.nameUnits.1]
    simp only
    rw [slice, List.take_left, List.drop_zero, ← List.drop_drop, List.drop_left, List.drop_one,
      List.tail_cons]
    simp only [positive, true_and]

private theorem findPart_jar {name : JsString} (asked : name ≠ []) (jar : List Cookie)
    {left : JsString} (blank : ∀ c ∈ left, isSpace c = true) (unmarked : unit ';' ∉ left) :
    (splitOn (unit ';') (left ++ cookieHeader jar)).findSome? (cookiePart name) =
      held jar name := by
  have whole (cookie : Cookie) {left : JsString} (unmarked : unit ';' ∉ left) :
      unit ';' ∉ left ++ cookie.text := by
    rw [Cookie.text]
    split
    · rw [List.mem_append]
      exact not_or.mpr ⟨unmarked, cookie.valueUnit⟩
    · rw [List.mem_append, List.mem_append, List.mem_append]
      rintro (early | (inName | isMark) | inValue)
      · exact unmarked early
      · exact cookie.nameUnits.2 inName
      · exact absurd isMark (by decide)
      · exact cookie.valueUnit inValue
  induction jar generalizing left with
  | nil =>
      have nothing : trim (left ++ cookieHeader []) = [] := by
        rw [cookieHeader, List.map_nil, joinWith, List.intercalate_nil, List.append_nil, trim,
          trimStart, List.dropWhile_eq_nil_iff.mpr blank]
        rfl
      have alone : unit ';' ∉ left ++ cookieHeader [] := by
        rwa [cookieHeader, List.map_nil, joinWith, List.intercalate_nil, List.append_nil]
      rw [splitOn, List.splitOn_eq_singleton alone, List.findSome?_singleton, cookiePart, nothing]
      rfl
  | cons cookie rest inductionHypothesis =>
      rw [held, List.find?_cons]
      cases rest with
      | nil =>
          have last : cookieHeader [cookie] = cookie.text := by
            rw [cookieHeader, List.map_singleton, joinWith, List.intercalate_singleton]
          rw [last, splitOn, List.splitOn_eq_singleton (whole cookie unmarked),
            List.findSome?_singleton, cookiePart_text cookie asked blank]
          by_cases same : cookie.name = name
          · simp [same]
          · simp [same]
      | cons next others =>
          have more : left ++ cookieHeader (cookie :: next :: others) = (left ++ cookie.text) ++
              unit ';' :: ([unit ' '] ++ cookieHeader (next :: others)) := by
            rw [cookieHeader, List.map_cons, List.map_cons, joinWith,
              List.intercalate_cons_cons, cookieHeader, List.map_cons, joinWith]
            simp [js]
          have later : (splitOn (unit ';') ([unit ' '] ++ cookieHeader (next :: others))).findSome?
              (cookiePart name) = held (next :: others) name :=
            inductionHypothesis (by rintro c inside; rw [List.mem_singleton.mp inside]; decide)
              (by decide)
          rw [splitOn] at later
          rw [more, splitOn, List.splitOn_append_cons_self_of_not_mem (whole cookie unmarked),
            List.findSome?_cons, cookiePart_text cookie asked blank, later, held]
          by_cases same : cookie.name = name
          · simp [same]
          · simp [same]

/-- What is read of a jar under a name is the first cookie of that name. -/
theorem readCookie_jar (jar : List Cookie) {name : JsString} (asked : name ≠ []) :
    readCookie (some (cookieHeader jar)) name = held jar name := by
  rw [readCookie, Option.bind_some]
  have whole : (splitOn (unit ';') ([] ++ cookieHeader jar)).findSome? (cookiePart name) =
      held jar name :=
    findPart_jar asked jar (fun c inside => absurd inside List.not_mem_nil) List.not_mem_nil
  exact whole

/-! ### The decision -/

private theorem sessionCookieName_filled (secure : Bool) : sessionCookieName secure ≠ [] := by
  cases secure <;> decide

private theorem csrfCookieName_filled (secure : Bool) : csrfCookieName secure ≠ [] := by
  cases secure <;> decide

private theorem tokenRejection_none {mac : Mac} {request : CsrfRequest} {jar : List Cookie}
    {token : CsrfTokenOptions} :
    tokenRejection mac request (cookieHeader jar) token = none ↔
      ∀ session, held jar (sessionCookieName token.secure) = some session →
        pathOf request.url ∉ TOKEN_EXEMPT_PATHS →
        ∃ nonce, nonce ≠ [] ∧ unit '.' ∉ nonce ∧
          header request.headers CSRF_HEADER =
            some (mintCsrfToken mac token.secret session nonce) ∧
          held jar (csrfCookieName token.secure) =
            some (mintCsrfToken mac token.secret session nonce) := by
  rw [tokenRejection, readCookie_jar jar (sessionCookieName_filled token.secure),
    readCookie_jar jar (csrfCookieName_filled token.secure)]
  cases held jar (sessionCookieName token.secure) with
  | none =>
      exact ⟨fun _ session found => (Option.some_ne_none session found.symm).elim, fun _ => rfl⟩
  | some session =>
      simp only [List.contains_iff_mem, Option.some.injEq, forall_eq']
      by_cases exempt : pathOf request.url ∈ TOKEN_EXEMPT_PATHS
      · simp [exempt]
      · rw [if_neg exempt]
        constructor
        · intro passed _
          split at passed
          · rename_i presented stored inHeader inJar
            split at passed
            · cases passed
            rename_i agree
            split at passed
            · rename_i verified
              obtain ⟨nonce, filled, plain, rfl⟩ := verifyCsrfToken_iff.mp verified
              exact ⟨nonce, filled, plain, inHeader,
                inJar.trans (congrArg some (Decidable.of_not_not agree).symm)⟩
            · cases passed
          · cases passed
        · intro minted
          obtain ⟨nonce, filled, plain, inHeader, inJar⟩ := minted exempt
          rw [inHeader, inJar]
          simp only
          rw [if_neg (not_not_intro rfl),
            if_pos (verifyCsrfToken_iff.mpr ⟨nonce, filled, plain, rfl⟩)]

/-- What the check lets through. A token minted for another session is let through only where the
signature over its nonce is the same for both sessions. -/
theorem csrf_passes_iff (mac : Mac) (request : CsrfRequest) (options : CsrfOptions)
    (jar : Option (List Cookie))
    (carried : header request.headers (js "cookie") = jar.map cookieHeader) :
    (csrfRejection mac request options = none ↔
      (toUpperCase request.method ∈ STATE_CHANGING_METHODS → ∀ cookies, jar = some cookies →
        (∀ origin, header request.headers (js "origin") = some origin →
          origin ∈ options.allowedOrigins) ∧
        (∀ site, header request.headers (js "sec-fetch-site") = some site →
          site ∈ SAFE_FETCH_SITES) ∧
        ∀ token, options.token = some token →
          ∀ session, held cookies (sessionCookieName token.secure) = some session →
            pathOf request.url ∉ TOKEN_EXEMPT_PATHS →
            ∃ nonce, nonce ≠ [] ∧ unit '.' ∉ nonce ∧
              header request.headers CSRF_HEADER =
                some (mintCsrfToken mac token.secret session nonce) ∧
              held cookies (csrfCookieName token.secure) =
                some (mintCsrfToken mac token.secret session nonce))) ∧
    (toUpperCase request.method ∈ STATE_CHANGING_METHODS →
      csrfRejection mac request options = none → ∀ cookies token session other drawn,
        jar = some cookies → options.token = some token →
        held cookies (sessionCookieName token.secure) = some session →
        pathOf request.url ∉ TOKEN_EXEMPT_PATHS → unit '.' ∉ drawn →
        header request.headers CSRF_HEADER = some (mintCsrfToken mac token.secret other drawn) →
        sign mac token.secret drawn session = sign mac token.secret drawn other) := by
  have decides : csrfRejection mac request options = none ↔
      (toUpperCase request.method ∈ STATE_CHANGING_METHODS → ∀ cookies, jar = some cookies →
        (∀ origin, header request.headers (js "origin") = some origin →
          origin ∈ options.allowedOrigins) ∧
        (∀ site, header request.headers (js "sec-fetch-site") = some site →
          site ∈ SAFE_FETCH_SITES) ∧
        ∀ token, options.token = some token →
          tokenRejection mac request (cookieHeader cookies) token = none) := by
    rw [csrfRejection, carried]
    by_cases changes : toUpperCase request.method ∈ STATE_CHANGING_METHODS
    · rw [if_pos (List.contains_iff_mem.mpr changes)]
      cases jar with
      | none => simp
      | some cookies =>
          simp only [Option.map_some, changes, true_implies, Option.some.injEq, forall_eq']
          have origins : ((header request.headers (js "origin")).any fun origin =>
              !options.allowedOrigins.contains origin) = false ↔
              ∀ origin, header request.headers (js "origin") = some origin →
                origin ∈ options.allowedOrigins := by
            cases header request.headers (js "origin") <;> simp
          have sites : ((header request.headers (js "sec-fetch-site")).any fun site =>
              !SAFE_FETCH_SITES.contains site) = false ↔
              ∀ site, header request.headers (js "sec-fetch-site") = some site →
                site ∈ SAFE_FETCH_SITES := by
            cases header request.headers (js "sec-fetch-site") <;> simp
          rw [← origins, ← sites]
          split
          · rename_i foreign
            exact ⟨fun refused => (Option.some_ne_none _ refused).elim,
              fun ⟨ours, _⟩ => absurd foreign (Bool.eq_false_iff.mp ours)⟩
          rename_i ours
          rw [Bool.not_eq_true] at ours
          split
          · rename_i foreign
            exact ⟨fun refused => (Option.some_ne_none _ refused).elim,
              fun ⟨_, safe, _⟩ => absurd foreign (Bool.eq_false_iff.mp safe)⟩
          rename_i safe
          rw [Bool.not_eq_true] at safe
          cases options.token with
          | none =>
              exact ⟨fun _ => ⟨ours, safe, fun token asks =>
                (Option.some_ne_none token asks.symm).elim⟩, fun _ => rfl⟩
          | some token =>
              refine ⟨fun passed => ⟨ours, safe, fun _ asks => ?_⟩, fun ⟨_, _, tokens⟩ =>
                tokens token rfl⟩
              cases asks
              exact passed
    · rw [if_neg fun inside => changes (List.contains_iff_mem.mp inside)]
      exact ⟨fun _ changing => absurd changing changes, fun _ => rfl⟩
  constructor
  · rw [decides]
    simp only [tokenRejection_none]
  · intro changes passed cookies token session other drawn jars asks found subject plain presented
    obtain ⟨_, _, tokens⟩ := decides.mp passed changes cookies jars
    obtain ⟨nonce, _, noncePlain, inHeader, _⟩ :=
      tokenRejection_none.mp (tokens token asks) session found subject
    exact mintCsrfToken_sessions noncePlain plain
      (Option.some.inj (inHeader.symm.trans presented))

/-- A jar with a cookie of another tool, a session, and the token minted for it. -/
private def staffJar : List Cookie :=
  [⟨js "theme", js "dark blue", by decide, by decide, by decide, by decide +kernel,
      by decide +kernel⟩,
    ⟨[], js "first visit", by decide, by decide, by decide, by decide, by decide +kernel⟩,
    ⟨sessionCookieName false, js "Zb4q0", by decide, by decide, by decide, by decide +kernel,
      by decide +kernel⟩,
    ⟨csrfCookieName false, mintCsrfToken keyedMac (js "a secret") (js "Zb4q0") (js "9e"),
      by decide +kernel, by decide +kernel, by decide +kernel, by decide +kernel,
      by decide +kernel⟩]

/-- The headers of a console on this deployment. -/
private def consoleHeaders (name : JsString) : Option HeaderValue :=
  if name = js "cookie" then some (.one (cookieHeader staffJar))
  else if name = js "origin" then some (.one (js "https://console.example"))
  else if name = CSRF_HEADER then
    some (.one (mintCsrfToken keyedMac (js "a secret") (js "Zb4q0") (js "9e")))
  else none

/-- A role granted from the console, with the token of its session. -/
theorem csrf_passes_iff_example :
    csrfRejection keyedMac ⟨js "POST", js "/api/v1/user-roles", consoleHeaders⟩
      ⟨[js "https://console.example"], some ⟨js "a secret", false⟩⟩ = none := by
  refine (csrf_passes_iff keyedMac ⟨js "POST", js "/api/v1/user-roles", consoleHeaders⟩ _
    (some staffJar) (by decide +kernel)).1.mpr ?_
  rintro _ cookies ⟨⟩
  refine ⟨?_, ?_, ?_⟩
  · intro origin sent
    have ours : header consoleHeaders (js "origin") = some (js "https://console.example") := by
      decide +kernel
    cases ours.symm.trans sent
    exact List.mem_singleton_self _
  · intro site sent
    have silent : header consoleHeaders (js "sec-fetch-site") = none := by decide +kernel
    cases silent.symm.trans sent
  · rintro token ⟨⟩ session found _
    have mine : held staffJar (sessionCookieName false) = some (js "Zb4q0") := by decide +kernel
    cases mine.symm.trans found
    exact ⟨js "9e", by decide, by decide, by decide +kernel, by decide +kernel⟩

end Assaybank.Api.Csrf
