import Assaybank.Auth.Claims
import Assaybank.Contracts.QuestionInput
import Assaybank.Domain.Deadline

/-!
Owns the single-session ticket a websocket is opened with (`packages/auth/src/ws-ticket.ts`).

Contract: a ticket that verifies is the sealed form of its payload, and one that was minted
verifies only from the skew before its issue to its sixty seconds after
(`verifyWsTicket_minted_window`).

It does not own single use: that is state, and the replay store's.
-/

namespace Assaybank.Auth

open Assaybank.Runtime Assaybank.Library Assaybank.Contracts Assaybank.Domain

def WS_TICKET_PREFIX : JsString := js "abwt1"

def WS_TICKET_TTL_SECONDS : Int := 60

def WS_TICKET_CLOCK_SKEW_SECONDS : Int := 5

/-- The largest magnitude of a valid date, in milliseconds. -/
def MAX_TIME_VALUE : Int := 8640000000000000

/-- `new Date(ms).getTime()`: nothing beyond the range of a date. -/
def timeValue (ms : Int) : Option EpochMillis := if |ms| ≤ MAX_TIME_VALUE then some ms else none

/-- What a ticket asserts. The instant is that of a date, which may be an invalid one. -/
structure WsTicket where
  sessionId : JsString
  issuedAt : Option EpochMillis
deriving DecidableEq

structure WsTicketClaims where
  v : Int
  p : Unit
  sid : JsString
  iat : Int
  n : JsString

def WsTicketClaimsSchema : Schema WsTicketClaims :=
  .looseObject
    (.both (.field (js "v") (.integer [⟨fun v => decide (v = 1), .invalidValue⟩]))
      (.both (.field (js "p") (.enumeration [()] (fun _ => js "ws") (by decide)))
        (.both (.field (js "sid") UuidSchema)
          (.both
            (.field (js "iat")
              (safeInteger [⟨fun iat => decide (0 < iat), .tooSmall⟩, maxInt MAX_SAFE_INTEGER]))
            (.field (js "n") (.string [minLength 1, maxLength 64]))))))
    { toFun := fun (v, p, sid, iat, n) => ⟨v, p, sid, iat, n⟩
      invFun := fun c => (c.v, c.p, c.sid, c.iat, c.n)
      left_inv := fun _ => rfl
      right_inv := fun _ => rfl }

/-- A ticket as the server mints it: of one session and a valid date, with the nonce in base64url
that makes it distinct. -/
structure MintedTicket where
  sessionId : JsString
  issuedAt : EpochMillis
  nonce : JsString
  session : isUuid sessionId = true
  dated : |issuedAt| ≤ MAX_TIME_VALUE
  plain : isAsciiText nonce = true

/-- The claim set on the wire. -/
def MintedTicket.claims (ticket : MintedTicket) : Value :=
  .object [(js "v", .number 1), (js "p", .string (js "ws")), (js "sid", .string ticket.sessionId),
    (js "iat", .number (.ofInt ticket.issuedAt)), (js "n", .string ticket.nonce)]

/-- The payload that is signed. -/
def MintedTicket.payload (ticket : MintedTicket) : JsString :=
  encodeBase64Url (jsonText ticket.claims)

def issueWsTicket (mac : Mac) (ticket : MintedTicket) (secret : JsString) : JsString :=
  sealEnvelope mac WS_TICKET_PREFIX ticket.claims secret

/-- Authenticates a ticket: signature, then claims, then age. An invalid date has no age, and
compares as neither too young nor too old. -/
def verifyWsTicket (mac : Mac) (readClaims : JsString → Option Value) (ticket secret : JsString)
    (now : EpochMillis) : Except AuthErrorReason WsTicket :=
  match openEnvelope mac readClaims ticket WS_TICKET_PREFIX secret with
  | .error reason => .error reason
  | .ok value =>
      match WsTicketClaimsSchema.safeParse value with
      | none => .error .claimsInvalid
      | some parsed =>
          let issuedAt := timeValue parsed.iat
          let ageMs := issuedAt.map fun issued => now - issued
          if ageMs.any fun age => age < -WS_TICKET_CLOCK_SKEW_SECONDS * 1000 then
            .error .notYetValid
          else if ageMs.any fun age => WS_TICKET_TTL_SECONDS * 1000 ≤ age then .error .expired
          else .ok ⟨parsed.sid, issuedAt⟩

/-! ### What verifies -/

theorem issueWsTicket_eq (mac : Mac) (ticket : MintedTicket) (secret : JsString) :
    issueWsTicket mac ticket secret = sealPayload mac WS_TICKET_PREFIX ticket.payload secret := rfl

/-- What was minted is read back. -/
theorem readClaims_payload (ticket : MintedTicket) :
    readClaims ticket.payload = some ticket.claims := by
  refine readClaims_encoded rfl ?_ ?_
  · simp only [MintedTicket.claims, everyString, everyMember, isAsciiText_of_isUuid ticket.session,
      ticket.plain]
    decide
  · simp only [MintedTicket.claims, everyString, everyMember,
      isCharacterText_of_ascii (isAsciiText_of_isUuid ticket.session),
      isCharacterText_of_ascii ticket.plain]
    decide

/-- The claims of a minted ticket say when it was issued. -/
private theorem claims_iat {ticket : MintedTicket} {parsed : WsTicketClaims}
    (read : WsTicketClaimsSchema.safeParse ticket.claims = some parsed) :
    parsed.iat = ticket.issuedAt := by
  obtain ⟨⟨v, p, sid, iat, n⟩, fields, rfl⟩ :=
    Parsed.map_eq_accepted.mp (Schema.safeParse_eq_some.mp read)
  obtain ⟨_, fields⟩ := Parsed.both_eq_accepted.mp fields
  obtain ⟨_, fields⟩ := Parsed.both_eq_accepted.mp fields
  obtain ⟨_, fields⟩ := Parsed.both_eq_accepted.mp fields
  obtain ⟨issued, _⟩ := Parsed.both_eq_accepted.mp fields
  have named : member? [(js "v", .number 1), (js "p", .string (js "ws")),
      (js "sid", .string ticket.sessionId), (js "iat", .number (.ofInt ticket.issuedAt)),
      (js "n", .string ticket.nonce)] (js "iat") = some (.number (.ofInt ticket.issuedAt)) := rfl
  simp only [Fields.field, named] at issued
  have value := Parsed.within_eq_accepted.mp issued
  simp only [safeInteger, Schema.integer, Schema.scalar, Decimal.toInt?_ofInt, Parsed.accepted,
    Parsed.mk.injEq, Option.some.injEq] at value
  exact value.1.symm

/-- A ticket that verifies is the sealed form of its payload. -/
theorem verifyWsTicket_text {mac : Mac} {readClaims : JsString → Option Value}
    {credential secret : JsString} {now : EpochMillis} {ticket : WsTicket}
    (verified : verifyWsTicket mac readClaims credential secret now = .ok ticket) :
    ∃ payload, credential = sealPayload mac WS_TICKET_PREFIX payload secret := by
  unfold verifyWsTicket at verified
  cases opened : openEnvelope mac readClaims credential WS_TICKET_PREFIX secret with
  | error reason =>
      rw [opened] at verified
      cases verified
  | ok value =>
      obtain ⟨payload, text, _⟩ := openEnvelope_text opened
      exact ⟨payload, text⟩

/-- A minted ticket verifies within its window alone. -/
theorem verifyWsTicket_minted_window {mac : Mac} {minted : MintedTicket} {secret : JsString}
    {now : EpochMillis} {ticket : WsTicket}
    (verified : verifyWsTicket mac readClaims (issueWsTicket mac minted secret) secret now =
      .ok ticket) :
    minted.issuedAt - WS_TICKET_CLOCK_SKEW_SECONDS * 1000 ≤ now ∧
      now < minted.issuedAt + WS_TICKET_TTL_SECONDS * 1000 := by
  unfold verifyWsTicket at verified
  split at verified
  · cases verified
  · rename_i value opened
    obtain ⟨payload, text, read⟩ := openEnvelope_text opened
    rw [issueWsTicket_eq] at text
    rw [← sealPayload_inj text, readClaims_payload] at read
    cases read
    split at verified
    · cases verified
    · rename_i parsed accepted
      rw [claims_iat accepted, timeValue, if_pos minted.dated] at verified
      simp only [Option.map_some, Option.any_some, decide_eq_true_eq] at verified
      split_ifs at verified with young old
      constructor
      · linarith [not_lt.mp young]
      · linarith [not_le.mp old]

end Assaybank.Auth
