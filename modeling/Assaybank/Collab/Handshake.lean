import Assaybank.Collab.TicketStore

/-!
Owns the decision on a websocket upgrade (`authorise` in `apps/collab/src/server.ts`) and the runs
of a server that decides on upgrades and shuts down.

Contract: whatever is presented in whatever order, an admitted string is that of a minted ticket, is
admitted once, and is refused as replayed only after it was admitted (`upgrades_single_use`).

It does not own the parsing of a request's URL: a request is its path and the ticket of its query.
-/

namespace Assaybank.Collab

open Assaybank.Runtime Assaybank.Library Assaybank.Domain Assaybank.Auth

/-! ### The decision -/

/-- What the service is built with, and the digest its signatures and hashes are made with. -/
structure CollabServerOptions where
  mac : Mac
  ticketSecret : JsString
  ticketPepper : JsString

structure UpgradeRequest where
  pathname : JsString
  ticket : Option JsString

structure Refusal where
  status : Nat
  reason : JsString
deriving DecidableEq

structure Authorised where
  ticket : WsTicket
  roomCode : JsString
deriving DecidableEq

def COLLAB_PATH_PREFIX : JsString := js "/collab"

/-- `[A-Za-z0-9]`. -/
def isAlphanumeric (c : CodeUnit) : Bool := isLower c || isUpper c || isDigit c

/-- `^[A-Za-z0-9][A-Za-z0-9_-]{2,63}$`. -/
def isRoomCode : JsString → Bool
  | [] => false
  | first :: rest =>
      isAlphanumeric first && decide (2 ≤ rest.length) && decide (rest.length ≤ 63) &&
        rest.all fun c => isAlphanumeric c || c == unit '_' || c == unit '-'

/-- What an upgrade is decided from. -/
structure Gate where
  draining : Bool
  tickets : TicketStore

/-- The room code of a path, when it is `/collab/` and one. -/
def roomCode? (pathname : JsString) : Option JsString :=
  match (splitOn (unit '/') pathname).filter fun segment => 0 < segment.length with
  | [first, roomCode] =>
      if js "/" ++ first = COLLAB_PATH_PREFIX ∧ isRoomCode roomCode then some roomCode else none
  | _ => none

/-- Decides whether an upgrade may complete. The clock is read for the age of the ticket, and again
for its claim. -/
def authorise (options : CollabServerOptions) (gate : Gate) (request : UpgradeRequest)
    (verifiedAt claimedAt : EpochMillis) : Except Refusal Authorised × Gate :=
  if gate.draining then (.error ⟨503, js "shutting_down"⟩, gate)
  else
    match roomCode? request.pathname with
    | none => (.error ⟨404, js "unknown_path"⟩, gate)
    | some roomCode =>
        match request.ticket.filter fun presented => 0 < presented.length with
        | none => (.error ⟨401, js "no_ticket"⟩, gate)
        | some presented =>
            match verifyWsTicket options.mac readClaims presented options.ticketSecret
                verifiedAt with
            | .error reason => (.error ⟨401, js reason.name⟩, gate)
            | .ok ticket =>
                match claimTicket options.mac options.ticketPepper gate.tickets
                    ⟨presented, claimedAt⟩ with
                | (.replayed, tickets) =>
                    (.error ⟨401, js "replayed"⟩, { gate with tickets := tickets })
                | (.claimed, tickets) => (.ok ⟨ticket, roomCode⟩, { gate with tickets := tickets })

/-! ### Runs -/

/-- An upgrade at an instant, the start of a shutdown, or its last step. -/
inductive GateEvent where
  | upgrade (request : UpgradeRequest) (time : EpochMillis)
  | close
  | stopped

def GateEvent.time? : GateEvent → Option EpochMillis
  | .upgrade _ time => some time
  | .close => none
  | .stopped => none

def GateEvent.presented? : GateEvent → Option JsString
  | .upgrade request _ => request.ticket
  | .close => none
  | .stopped => none

/-- A server that has just started. -/
def openGate : Gate := ⟨false, .empty⟩

def Gate.step (options : CollabServerOptions) (gate : Gate) : GateEvent → Gate
  | .upgrade request time => (authorise options gate request time time).2
  | .close => { gate with draining := true }
  | .stopped => if gate.draining then { gate with tickets := .empty } else gate

/-- The ticket an event admits. -/
def Gate.admission (options : CollabServerOptions) (gate : Gate) : GateEvent → Option JsString
  | .upgrade request time =>
      match (authorise options gate request time time).1 with
      | .ok _ => request.ticket
      | .error _ => none
  | .close => none
  | .stopped => none

def Gate.after (options : CollabServerOptions) (gate : Gate) (events : List GateEvent) : Gate :=
  events.foldl (Gate.step options) gate

/-- The tickets a run admits, in order. -/
def Gate.admitted (options : CollabServerOptions) : Gate → List GateEvent → List JsString
  | _, [] => []
  | gate, event :: rest =>
      (gate.admission options event).toList ++ Gate.admitted options (gate.step options event) rest

/-! ### One decision -/

/-- What an upgrade can come to: no effect and no replay, or the claim of a ticket that verifies. -/
theorem authorise_cases (options : CollabServerOptions) (gate : Gate) (request : UpgradeRequest)
    (time : EpochMillis) :
    (∃ refusal, refusal.reason ≠ js "replayed" ∧
        authorise options gate request time time = (.error refusal, gate)) ∨
      ∃ presented ticket roomCode outcome tickets, gate.draining = false ∧
        request.ticket = some presented ∧
        verifyWsTicket options.mac readClaims presented options.ticketSecret time = .ok ticket ∧
        claimTicket options.mac options.ticketPepper gate.tickets ⟨presented, time⟩ =
          (outcome, tickets) ∧
        authorise options gate request time time =
          (if outcome = .replayed then .error ⟨401, js "replayed"⟩ else .ok ⟨ticket, roomCode⟩,
            { gate with tickets := tickets }) := by
  unfold authorise
  by_cases draining : gate.draining
  · rw [if_pos draining]
    exact .inl ⟨⟨503, js "shutting_down"⟩, by decide, rfl⟩
  · rw [if_neg draining]
    cases roomCode? request.pathname with
    | none => exact .inl ⟨⟨404, js "unknown_path"⟩, by decide, rfl⟩
    | some roomCode =>
        cases named : request.ticket.filter fun presented => 0 < presented.length with
        | none => exact .inl ⟨⟨401, js "no_ticket"⟩, by decide, rfl⟩
        | some presented =>
            cases verified : verifyWsTicket options.mac readClaims presented options.ticketSecret
                time with
            | error reason =>
                exact .inl ⟨⟨401, js reason.name⟩, by cases reason <;> decide, by simp [verified]⟩
            | ok ticket =>
                rcases claimed : claimTicket options.mac options.ticketPepper gate.tickets
                  ⟨presented, time⟩ with ⟨outcome, tickets⟩
                refine .inr ⟨presented, ticket, roomCode, outcome, tickets, by simpa using draining,
                  (Option.filter_eq_some_iff.mp named).1, verified, claimed, ?_⟩
                cases outcome <;> simp [verified, claimed]

/-! ### Single use -/

/-- A string presented that carries a payload with its signature carries one that was signed: its
message is that of a minted ticket. -/
def Unforgeable (options : CollabServerOptions) (minted : List MintedTicket)
    (presented : List JsString) : Prop :=
  ∀ payload, sealPayload options.mac WS_TICKET_PREFIX payload options.ticketSecret ∈ presented →
    ∃ ticket ∈ minted, signedMessage WS_TICKET_PREFIX ticket.payload =
      signedMessage WS_TICKET_PREFIX payload

/-- No two strings presented have the same hash. -/
def HashInjective (options : CollabServerOptions) (presented : List JsString) : Prop :=
  ∀ a ∈ presented, ∀ b ∈ presented,
    hashToken options.mac a options.ticketPepper = hashToken options.mac b options.ticketPepper →
      a = b

/-- The wire string of a minted ticket. -/
def wireText (options : CollabServerOptions) (ticket : MintedTicket) : JsString :=
  issueWsTicket options.mac ticket options.ticketSecret

/-- The uses that a server granted, of those it was asked for. -/
def grantedUses (options : CollabServerOptions) (uses : List TicketUse) : List TicketUse :=
  (ticketStore options.mac options.ticketPepper).granted uses

/-- A server at an instant, after the uses it was asked for: its store is that of the uses unless it
is shutting down, each use that was granted is of a minted ticket from its window on, and none is of
the same ticket twice. -/
structure SingleUse (options : CollabServerOptions) (minted : List MintedTicket) (gate : Gate)
    (uses : List TicketUse) (clock : EpochMillis) : Prop where
  tickets : gate.draining = false →
    gate.tickets = ((ticketStore options.mac options.ticketPepper).run uses).1
  ordered : Claims.Ordered (ticketTerms options.mac options.ticketPepper) uses
  past : ∀ use ∈ uses, use.now ≤ clock
  minted : ∀ use ∈ grantedUses options uses, ∃ ticket ∈ minted, use.ticket = wireText options ticket ∧
    ticket.issuedAt - WS_TICKET_CLOCK_SKEW_SECONDS * 1000 ≤ use.now
  once : ((grantedUses options uses).map TicketUse.ticket).Nodup

theorem singleUse_open (options : CollabServerOptions) (minted : List MintedTicket)
    (clock : EpochMillis) : SingleUse options minted openGate [] clock where
  tickets _ := rfl
  ordered := List.Pairwise.nil
  past _ inside := absurd inside List.not_mem_nil
  minted _ inside := absurd inside List.not_mem_nil
  once := List.nodup_nil

variable {options : CollabServerOptions} {minted : List MintedTicket}

/-- What holds at an instant holds later. -/
private theorem SingleUse.later {gate : Gate} {uses : List TicketUse} {clock time : EpochMillis}
    (single : SingleUse options minted gate uses clock) (onward : clock ≤ time) :
    SingleUse options minted gate uses time :=
  { single with past := fun use inside => (single.past use inside).trans onward }

/-- One more use is in order. -/
private theorem SingleUse.ordered_snoc {gate : Gate} {uses : List TicketUse} {clock : EpochMillis}
    (single : SingleUse options minted gate uses clock) {use : TicketUse} (onward : clock ≤ use.now) :
    Claims.Ordered (ticketTerms options.mac options.ticketPepper) (uses ++ [use]) := by
  refine List.pairwise_append.mpr ⟨single.ordered, List.pairwise_singleton _ _, ?_⟩
  intro earlier inside later last
  rw [List.mem_singleton.mp last]
  exact (single.past earlier inside).trans onward

/-- A string that verifies is the wire string of a minted ticket, presented in its window. -/
private theorem verified_minted {presented : List JsString} {credential : JsString}
    {time : EpochMillis} {ticket : WsTicket} (unforgeable : Unforgeable options minted presented)
    (inside : credential ∈ presented)
    (verified : verifyWsTicket options.mac readClaims credential options.ticketSecret time =
      .ok ticket) :
    ∃ ticket ∈ minted, credential = wireText options ticket ∧
      ticket.issuedAt - WS_TICKET_CLOCK_SKEW_SECONDS * 1000 ≤ time ∧
      time < ticket.issuedAt + WS_TICKET_TTL_SECONDS * 1000 := by
  obtain ⟨payload, rfl⟩ := verifyWsTicket_text verified
  obtain ⟨issued, member, message⟩ := unforgeable payload inside
  obtain rfl := signedMessage_inj message
  exact ⟨issued, member, rfl, verifyWsTicket_minted_window verified⟩

/-- Two minted tickets of one wire string were issued at one instant. -/
private theorem issuedAt_of_wireText {ticket other : MintedTicket}
    (same : wireText options other = wireText options ticket) :
    other.issuedAt = ticket.issuedAt := by
  have payloads : other.payload = ticket.payload := sealPayload_inj same
  have claims : some other.claims = some ticket.claims := by
    rw [← readClaims_payload other, ← readClaims_payload ticket, payloads]
  simp only [MintedTicket.claims, Option.some.injEq, Value.object.injEq, List.cons.injEq,
    Prod.mk.injEq, Value.number.injEq, true_and, and_true] at claims
  have instants := congrArg Decimal.toInt? claims.2.1
  rw [Decimal.toInt?_ofInt, Decimal.toInt?_ofInt] at instants
  exact Option.some.inj instants

/-- A claim that is granted takes a ticket that was never admitted: had it been, at any instant from
its window on, it would be remembered to the end of the window. -/
private theorem singleUse_granted {gate : Gate} {uses : List TicketUse} {clock : EpochMillis}
    {use : TicketUse} {tickets : TicketStore} {ticket : MintedTicket}
    (single : SingleUse options minted gate uses clock) (serving : gate.draining = false)
    (onward : clock ≤ use.now) (member : ticket ∈ minted)
    (text : use.ticket = wireText options ticket)
    (early : ticket.issuedAt - WS_TICKET_CLOCK_SKEW_SECONDS * 1000 ≤ use.now)
    (late : use.now < ticket.issuedAt + WS_TICKET_TTL_SECONDS * 1000)
    (granted : claimTicket options.mac options.ticketPepper gate.tickets use =
      (.claimed, tickets)) :
    grantedUses options (uses ++ [use]) = grantedUses options uses ++ [use] ∧
      SingleUse options minted { gate with tickets := tickets } (uses ++ [use]) use.now := by
  rw [single.tickets serving] at granted
  have appended : grantedUses options (uses ++ [use]) = grantedUses options uses ++ [use] := by
    rw [grantedUses, granted_claimTicket, granted, if_pos rfl]
    rfl
  refine ⟨appended, ?_, single.ordered_snoc onward, ?_, ?_, ?_⟩
  · intro _
    rw [Claims.Store.state_snoc]
    exact (congrArg Prod.snd granted).symm
  · intro other inside
    rcases List.mem_append.mp inside with earlier | last
    · exact (single.past other earlier).trans onward
    · exact le_of_eq (congrArg TicketUse.now (List.mem_singleton.mp last))
  · intro other inside
    rw [appended] at inside
    rcases List.mem_append.mp inside with earlier | last
    · exact single.minted other earlier
    · rw [List.mem_singleton.mp last]
      exact ⟨ticket, member, text, early⟩
  · rw [appended, List.map_append, List.nodup_append]
    refine ⟨single.once, List.nodup_singleton _, ?_⟩
    intro admitted earlier again last same
    obtain ⟨prior, inside, rfl⟩ := List.mem_map.mp earlier
    rw [List.mem_singleton.mp last] at same
    obtain ⟨other, otherMember, otherText, window⟩ := single.minted prior inside
    have issued := issuedAt_of_wireText (otherText.symm.trans (same.trans text))
    have refused := mt (claim_replayed_iff (single.ordered_snoc onward)).mpr (by rw [granted]; exact nofun)
    refine refused ⟨prior, inside, by rw [same], ?_⟩
    show use.now < prior.now + REPLAY_RETENTION_MS
    unfold REPLAY_RETENTION_MS
    rw [issued] at window
    linarith

/-- A claim that is refused leaves what was granted. -/
private theorem singleUse_replayed {gate : Gate} {uses : List TicketUse} {clock : EpochMillis}
    {use : TicketUse} {tickets : TicketStore} (single : SingleUse options minted gate uses clock)
    (serving : gate.draining = false) (onward : clock ≤ use.now)
    (refused : claimTicket options.mac options.ticketPepper gate.tickets use =
      (.replayed, tickets)) :
    grantedUses options (uses ++ [use]) = grantedUses options uses ∧
      SingleUse options minted { gate with tickets := tickets } (uses ++ [use]) use.now := by
  rw [single.tickets serving] at refused
  have same : grantedUses options (uses ++ [use]) = grantedUses options uses := by
    rw [grantedUses, granted_claimTicket, refused, if_neg nofun, List.append_nil]
    rfl
  refine ⟨same, ?_, single.ordered_snoc onward, ?_, ?_, ?_⟩
  · intro _
    rw [Claims.Store.state_snoc]
    exact (congrArg Prod.snd refused).symm
  · intro other inside
    rcases List.mem_append.mp inside with earlier | last
    · exact (single.past other earlier).trans onward
    · exact le_of_eq (congrArg TicketUse.now (List.mem_singleton.mp last))
  · rw [same]
    exact single.minted
  · rw [same]
    exact single.once

/-- One event keeps single use, with what it admits added to the uses that were granted. -/
private theorem singleUse_step {presented : List JsString} {gate : Gate} {event : GateEvent}
    {uses : List TicketUse} {clock : EpochMillis}
    (unforgeable : Unforgeable options minted presented)
    (inside : ∀ credential, event.presented? = some credential → credential ∈ presented)
    (onward : ∀ time, event.time? = some time → clock ≤ time)
    (single : SingleUse options minted gate uses clock) :
    ∃ later, (grantedUses options later).map TicketUse.ticket =
        (grantedUses options uses).map TicketUse.ticket ++
          (gate.admission options event).toList ∧
      SingleUse options minted (gate.step options event) later (event.time?.getD clock) := by
  cases event with
  | close =>
      exact ⟨uses, (List.append_nil _).symm,
        { single with tickets := fun serving => absurd serving (by simp [Gate.step]) }⟩
  | stopped =>
      refine ⟨uses, (List.append_nil _).symm, { single with tickets := ?_ }⟩
      intro serving
      unfold Gate.step at serving ⊢
      by_cases draining : gate.draining
      · rw [if_pos draining] at serving
        exact absurd serving (by simp [draining])
      · rw [if_neg draining]
        exact single.tickets (by simpa using draining)
  | upgrade request time =>
      have time_onward : clock ≤ time := onward time rfl
      rcases authorise_cases options gate request time with
        ⟨refusal, _, outcome⟩ | ⟨credential, ticket, roomCode, decided, tickets, serving, named,
          verified, claim, outcome⟩
      · refine ⟨uses, ?_, ?_⟩
        · simp [Gate.admission, outcome]
        · show SingleUse options minted (authorise options gate request time time).2 uses time
          rw [outcome]
          exact single.later time_onward
      · cases decided with
        | replayed =>
            obtain ⟨same, kept⟩ := singleUse_replayed single serving time_onward claim
            refine ⟨uses ++ [⟨credential, time⟩], ?_, ?_⟩
            · simp [same, Gate.admission, outcome]
            · show SingleUse options minted (authorise options gate request time time).2 _ time
              rw [outcome]
              exact kept
        | claimed =>
            obtain ⟨issued, member, text, early, late⟩ :=
              verified_minted unforgeable (inside credential named) verified
            obtain ⟨appended, kept⟩ :=
              singleUse_granted single serving time_onward member text early late claim
            refine ⟨uses ++ [⟨credential, time⟩], ?_, ?_⟩
            · simp [appended, Gate.admission, outcome, named]
            · show SingleUse options minted (authorise options gate request time time).2 _ time
              rw [outcome]
              exact kept

/-- A run keeps single use, with what it admits added to the uses that were granted, in order. -/
private theorem singleUse_run {presented : List JsString} {gate : Gate} {events : List GateEvent}
    {uses : List TicketUse} {clock : EpochMillis}
    (unforgeable : Unforgeable options minted presented)
    (inside : ∀ credential ∈ events.filterMap GateEvent.presented?, credential ∈ presented)
    (inOrder : (clock :: events.filterMap GateEvent.time?).Pairwise (· ≤ ·))
    (single : SingleUse options minted gate uses clock) :
    ∃ later last, (grantedUses options later).map TicketUse.ticket =
        (grantedUses options uses).map TicketUse.ticket ++ gate.admitted options events ∧
      last ∈ clock :: events.filterMap GateEvent.time? ∧
      SingleUse options minted (gate.after options events) later last := by
  induction events generalizing gate uses clock with
  | nil => exact ⟨uses, clock, (List.append_nil _).symm, List.mem_cons_self, single⟩
  | cons event rest inductionHypothesis =>
      have onward : ∀ time, event.time? = some time → clock ≤ time := by
        intro time timed
        apply List.rel_of_pairwise_cons inOrder
        rw [List.filterMap_cons_some timed]
        exact List.mem_cons_self
      have first : ∀ credential, event.presented? = some credential → credential ∈ presented := by
        intro credential named
        apply inside
        rw [List.filterMap_cons_some named]
        exact List.mem_cons_self
      have others : ∀ credential ∈ rest.filterMap GateEvent.presented?, credential ∈ presented := by
        intro credential later
        obtain ⟨origin, member, named⟩ := List.mem_filterMap.mp later
        exact inside credential (List.mem_filterMap.mpr ⟨origin, List.mem_cons_of_mem _ member, named⟩)
      obtain ⟨middle, admitted, kept⟩ := singleUse_step unforgeable first onward single
      have restOrder : ((event.time?.getD clock) :: rest.filterMap GateEvent.time?).Pairwise
          (· ≤ ·) := by
        cases timed : event.time? with
        | none =>
            rw [List.filterMap_cons_none timed] at inOrder
            exact inOrder
        | some time =>
            rw [List.filterMap_cons_some timed] at inOrder
            exact inOrder.of_cons
      obtain ⟨later, last, texts, reached, final⟩ := inductionHypothesis others restOrder kept
      refine ⟨later, last, ?_, ?_, final⟩
      · rw [texts, admitted, Gate.admitted, List.append_assoc]
      · cases timed : event.time? with
        | none =>
            rw [timed] at reached
            rw [List.filterMap_cons_none timed]
            exact reached
        | some time =>
            rw [timed] at reached
            rw [List.filterMap_cons_some timed]
            exact List.mem_cons_of_mem _ reached

/-- What a run admits was presented in it. -/
private theorem admitted_presented {gate : Gate} {events : List GateEvent} {text : JsString}
    (admitted : text ∈ gate.admitted options events) :
    text ∈ events.filterMap GateEvent.presented? := by
  induction events generalizing gate with
  | nil => exact absurd admitted List.not_mem_nil
  | cons event rest inductionHypothesis =>
      rcases List.mem_append.mp admitted with now | later
      · have here : gate.admission options event = some text := Option.mem_toList.mp now
        cases event with
        | upgrade request time =>
            simp only [Gate.admission] at here
            split at here
            · exact List.mem_filterMap.mpr ⟨_, List.mem_cons_self, here⟩
            · cases here
        | close => cases here
        | stopped => cases here
      · obtain ⟨origin, member, named⟩ := List.mem_filterMap.mp (inductionHypothesis later)
        exact List.mem_filterMap.mpr ⟨origin, List.mem_cons_of_mem _ member, named⟩

/-- Some instant stands before a sequence in order. -/
private theorem exists_earlier {times : List EpochMillis} (inOrder : times.Pairwise (· ≤ ·)) :
    ∃ clock, (clock :: times).Pairwise (· ≤ ·) := by
  cases times with
  | nil => exact ⟨0, List.pairwise_singleton _ _⟩
  | cons first rest =>
      refine ⟨first, List.pairwise_cons.mpr ⟨?_, inOrder⟩⟩
      intro time inside
      rcases List.mem_cons.mp inside with rfl | later
      · exact le_rfl
      · exact List.rel_of_pairwise_cons inOrder later

/-- Over any run of a server, no string is admitted twice, each admitted string is the wire string
of a minted ticket, and only a ticket that was admitted is refused as replayed. -/
theorem upgrades_single_use (options : CollabServerOptions) (minted : List MintedTicket)
    (events : List GateEvent)
    (unforgeable : Unforgeable options minted (events.filterMap GateEvent.presented?))
    (hashInjective : HashInjective options (events.filterMap GateEvent.presented?))
    (inOrder : (events.filterMap GateEvent.time?).Pairwise (· ≤ ·)) :
    (openGate.admitted options events).Nodup ∧
      (∀ text ∈ openGate.admitted options events,
        ∃ ticket ∈ minted, text = wireText options ticket) ∧
      ∀ before request time after, events = before ++ .upgrade request time :: after →
        (authorise options (openGate.after options before) request time time).1 =
            .error ⟨401, js "replayed"⟩ →
          ∃ text, request.ticket = some text ∧ text ∈ openGate.admitted options before := by
  obtain ⟨clock, ordered⟩ := exists_earlier inOrder
  obtain ⟨uses, last, texts, _, single⟩ := singleUse_run unforgeable (fun _ inside => inside)
    ordered (singleUse_open options minted clock)
  change _ = openGate.admitted options events at texts
  refine ⟨?_, ?_, ?_⟩
  · rw [← texts]
    exact single.once
  · intro text admitted
    rw [← texts] at admitted
    obtain ⟨use, inside, rfl⟩ := List.mem_map.mp admitted
    obtain ⟨ticket, member, text, _⟩ := single.minted use inside
    exact ⟨ticket, member, text⟩
  · intro before request time after parts replayed
    have splitTimes : clock :: events.filterMap GateEvent.time? =
        (clock :: before.filterMap GateEvent.time?) ++
          time :: after.filterMap GateEvent.time? := by
      rw [parts, List.filterMap_append]
      rfl
    rw [splitTimes, List.pairwise_append] at ordered
    have first : ∀ credential ∈ before.filterMap GateEvent.presented?,
        credential ∈ events.filterMap GateEvent.presented? := by
      intro credential inside
      rw [parts, List.filterMap_append]
      exact List.mem_append_left _ inside
    obtain ⟨earlier, latest, earlierTexts, reached, kept⟩ := singleUse_run unforgeable first
      ordered.1 (singleUse_open options minted clock)
    change _ = openGate.admitted options before at earlierTexts
    rcases authorise_cases options (openGate.after options before) request time with
      ⟨refusal, other, outcome⟩ | ⟨credential, ticket, roomCode, decided, tickets, serving, named,
        _, claim, outcome⟩
    · rw [outcome] at replayed
      cases replayed
      exact absurd rfl other
    · rw [outcome] at replayed
      cases decided with
      | claimed => cases replayed
      | replayed =>
          have onward : latest ≤ time := ordered.2.2 latest reached time List.mem_cons_self
          rw [kept.tickets serving] at claim
          obtain ⟨use, inside, hashed, _⟩ :=
            (claim_replayed_iff (kept.ordered_snoc onward)).mp (congrArg Prod.fst claim)
          have admitted : use.ticket ∈ openGate.admitted options before := by
            rw [← earlierTexts]
            exact List.mem_map_of_mem inside
          have presented : credential ∈ events.filterMap GateEvent.presented? := by
            have here : (GateEvent.upgrade request time).presented? = some credential := named
            rw [parts, List.filterMap_append, List.filterMap_cons_some here]
            exact List.mem_append_right _ List.mem_cons_self
          have same := hashInjective credential presented use.ticket
            (first _ (admitted_presented admitted)) hashed.symm
          exact ⟨credential, named, same ▸ admitted⟩

/-! ### A ticket and its replay -/

/-- A ticket of one session. -/
def sampleTicket : MintedTicket where
  sessionId := js "0b7f3c52-8d1e-4a53-9f0c-2f6d1f1f7a11"
  issuedAt := 1000000
  nonce := js "a"
  session := by decide +kernel
  dated := by decide
  plain := by decide

/-- HMAC-SHA-256 on the two messages a run of that ticket signs and hashes: of `ticket-secret` on
the signed message, of `pepper` on the other. -/
def sampleMac : Mac where
  hmacHex _ message :=
    if message = signedMessage WS_TICKET_PREFIX sampleTicket.payload then
      js "19d684a0b4bd138db64b8129371f9729bd11f17b0d07d3d0001b6559ac1a3af9"
    else js "f8c9e2f2195135bc3cad33d5f76d5c9593263c6550895d495771c187803198ec"
  hexadecimal _ message := by split <;> decide

def sampleOptions : CollabServerOptions where
  mac := sampleMac
  ticketSecret := js "ticket-secret"
  ticketPepper := js "pepper"

/-- An upgrade to a room with the sample ticket. -/
def sampleUpgrade (time : EpochMillis) : GateEvent :=
  .upgrade ⟨js "/collab/room-1", some (wireText sampleOptions sampleTicket)⟩ time

theorem upgrades_single_use_example :
    (openGate.admitted sampleOptions [sampleUpgrade 1000500, sampleUpgrade 1059999]).Nodup ∧
      (∀ text ∈ openGate.admitted sampleOptions [sampleUpgrade 1000500, sampleUpgrade 1059999],
        ∃ ticket ∈ [sampleTicket], text = wireText sampleOptions ticket) ∧
      ∀ before request time after,
        [sampleUpgrade 1000500, sampleUpgrade 1059999] = before ++ .upgrade request time :: after →
        (authorise sampleOptions (openGate.after sampleOptions before) request time time).1 =
            .error ⟨401, js "replayed"⟩ →
          ∃ text, request.ticket = some text ∧
            text ∈ openGate.admitted sampleOptions before := by
  apply upgrades_single_use sampleOptions [sampleTicket]
  · intro payload inside
    refine ⟨sampleTicket, List.mem_singleton_self _, ?_⟩
    have text : sealPayload sampleOptions.mac WS_TICKET_PREFIX payload sampleOptions.ticketSecret =
        wireText sampleOptions sampleTicket := by
      simpa [sampleUpgrade, GateEvent.presented?] using inside
    rw [sealPayload_inj text]
    rfl
  · intro a first b second _
    have textA : a = wireText sampleOptions sampleTicket := by
      simpa [sampleUpgrade, GateEvent.presented?] using first
    have textB : b = wireText sampleOptions sampleTicket := by
      simpa [sampleUpgrade, GateEvent.presented?] using second
    rw [textA, textB]
  · decide

example : openGate.admitted sampleOptions [sampleUpgrade 1000500, sampleUpgrade 1059999] =
    [wireText sampleOptions sampleTicket] := by
  decide +kernel

end Assaybank.Collab
