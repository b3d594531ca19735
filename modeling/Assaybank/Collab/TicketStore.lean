import Assaybank.Auth.WsTicket
import Assaybank.Library.SweptMap

/-!
Owns the memory of redeemed tickets (`apps/collab/src/ticket-store.ts`): a map from a ticket's hash
to the instant it may be forgotten, swept lazily on the next claim.

Contract: it is a store of claims in which a use lasts for the retention (`ticketStore`), so a ticket
is refused exactly while a use of its hash that was granted is inside its retention, whatever sweeps
came between (`claim_replayed_iff`).
-/

namespace Assaybank.Collab

open Assaybank.Runtime Assaybank.Library Assaybank.Domain Assaybank.Auth

def REPLAY_RETENTION_MS : Int := (WS_TICKET_TTL_SECONDS + WS_TICKET_CLOCK_SKEW_SECONDS) * 1000

def SWEEP_INTERVAL_MS : Int := 10000

inductive ClaimOutcome where
  | claimed
  | replayed
deriving DecidableEq

/-- The hashes of redeemed tickets, and when they were last swept. -/
abbrev TicketStore := SweptMap JsString

/-- A ticket that is claimed, and the clock when it is. -/
structure TicketUse where
  ticket : JsString
  now : EpochMillis
deriving DecidableEq

/-- The instant a use may be forgotten. -/
def TicketUse.ends (use : TicketUse) : EpochMillis := use.now + REPLAY_RETENTION_MS

/-- Claims a ticket for its one permitted use. -/
def claimTicket (mac : Mac) (pepper : JsString) (store : TicketStore) (use : TicketUse) :
    ClaimOutcome × TicketStore :=
  let answer := store.claim SWEEP_INTERVAL_MS (hashToken mac use.ticket pepper) use.ends use.now
  (if answer.1 then .claimed else .replayed, answer.2)

/-! ### A store of claims -/

def ticketTerms (mac : Mac) (pepper : JsString) : Claims.Terms TicketUse JsString :=
  ⟨fun use => hashToken mac use.ticket pepper, TicketUse.now⟩

def ticketStore (mac : Mac) (pepper : JsString) :
    Claims.Store (ticketTerms mac pepper) (fun use at_ => decide (at_ < use.ends)) TicketStore :=
  SweptMap.store (ticketTerms mac pepper) TicketUse.ends SWEEP_INTERVAL_MS

section Uses

variable {mac : Mac} {pepper : JsString} {uses : List TicketUse} {use : TicketUse}

/-- The uses that were granted after one more. -/
theorem granted_claimTicket :
    (ticketStore mac pepper).granted (uses ++ [use]) =
      (ticketStore mac pepper).granted uses ++
        if (claimTicket mac pepper ((ticketStore mac pepper).run uses).1 use).1 = .claimed then [use]
        else [] := by
  rw [Claims.Store.granted_snoc]
  show _ = _ ++ if (if (ticketStore mac pepper).answer uses use then ClaimOutcome.claimed
    else .replayed) = .claimed then [use] else []
  cases (ticketStore mac pepper).answer uses use with
  | true => rfl
  | false => exact (List.append_nil _).symm

theorem claim_replayed_iff (ordered : Claims.Ordered (ticketTerms mac pepper) (uses ++ [use])) :
    (claimTicket mac pepper ((ticketStore mac pepper).run uses).1 use).1 = .replayed ↔
      ∃ prior ∈ (ticketStore mac pepper).granted uses,
        hashToken mac prior.ticket pepper = hashToken mac use.ticket pepper ∧
          use.now < prior.ends := by
  have refused := Claims.Store.refused_iff (ticketStore mac pepper) ordered
  simp only [decide_eq_true_eq] at refused
  refine Iff.trans ?_ refused
  show (if (ticketStore mac pepper).answer uses use then ClaimOutcome.claimed else .replayed) =
    .replayed ↔ _
  cases (ticketStore mac pepper).answer uses use <;> simp

end Uses

end Assaybank.Collab
