import Assaybank.Db.Audit

/-!
Owns what `audit_log` makes of a prepared row: the casts of the `INSERT`, the reason constraint of
migration 0004, and when a row that was accepted is one the table takes.

Contract: an accepted entry is stored as its caller described it, beside the writer's own keys, when
its strings are ones `jsonb` stores and its year is one `timestamptz` reads
(`prepareAuditEntry_lawful`). Nothing in the writer looks at either.

It does not own `inet`: an address is what `net.isIP` takes for one, without a zone.
-/

namespace Assaybank.Db

open Assaybank.Runtime Assaybank.Library Assaybank.Contracts

/-! ### The table -/

/-- `${column}::jsonb`; `none` where the cast raises. -/
def castJsonb : Option JsString → Option (Option Value)
  | none => some none
  | some text => (jsonbOf text).map some

/-- `value ->> name`. -/
def fieldText? (value : Value) (name : JsString) : Option JsString :=
  match value with
  | .object members =>
      match member? members name with
      | none => none
      | some .null => none
      | some (.string text) => some text
      | some other => some (jsonText other)
  | _ => none

/-- `btrim(text)`, which removes spaces only. -/
def btrim (text : JsString) : JsString :=
  (text.dropWhile (· == unit ' ')).rdropWhile (· == unit ' ')

/-- The `CHECK` of `audit_log_reason_required`. -/
def auditLogReasonRequired (action : JsString) (after : Option Value) : Bool :=
  (!([js "attempt.void", js "attempt.regrade", js "score.override"].contains action) &&
      !(js "job.").isPrefixOf action) ||
    match after.bind fun value => fieldText? value (js "reason") with
    | none => false
    | some reason => btrim reason != []

/-- Whether `timestamptz` reads a text of one of the forms `toISOString` writes: to it a token that
starts with a sign is a time zone, and no year is zero. -/
def isTimestamptz (text : JsString) : Bool :=
  text.head?.any isDigit && !(js "0000").isPrefixOf text

mutual

/-- Whether every key of a value has a property, at any depth. -/
def everyKey (good : JsString → Bool) : Value → Bool
  | .array items => everyKeyOfItems good items
  | .object members => everyKeyOfMembers good members
  | _ => true

def everyKeyOfItems (good : JsString → Bool) : List Value → Bool
  | [] => true
  | item :: rest => everyKey good item && everyKeyOfItems good rest

def everyKeyOfMembers (good : JsString → Bool) : List (JsString × Value) → Bool
  | [] => true
  | (name, value) :: rest => good name && everyKey good value && everyKeyOfMembers good rest

end

/-- A key that may be kept for seven years. -/
def isKeptKey (key : JsString) : Bool := !SECRET_KEY_PATTERN key

/-- A payload column of the stored row: an object, or NULL for one without fields. -/
def storedPayload (fields : List (JsString × Value)) : Option Value :=
  if fields = [] then none else some (.object fields)

/-- The `after` an entry is to leave: its caller's fields, and the writer's own keys. -/
def recordedAfter (entry : AuditEntry) : List (JsString × Value) :=
  callerFields entry.after ++ ownFields (entry.reason.map trim) entry.actor

/-- A row the table takes, and that says what the entry says. -/
structure LawfulRow (isIP : JsString → Nat) (entry : AuditEntry) (row : PreparedAuditEntry) :
    Prop where
  before : castJsonb row.before = some (storedPayload (callerFields entry.before))
  after : castJsonb row.after = some (storedPayload (recordedAfter entry))
  reason : auditLogReasonRequired row.action (storedPayload (recordedAfter entry)) = true
  actor : row.actorUserId = none ↔
    CANDIDATE_ACTION_PREFIX <+: row.action ∨ JOB_ACTION_PREFIX <+: row.action
  secrets : everyKeyOfMembers isKeptKey (callerFields entry.before ++ recordedAfter entry) = true
  budget : payloadBytes row.before row.after ≤ MAX_PAYLOAD_BYTES
  entityId : row.entityId.all isUuid = true
  ip : row.ip.all (isAuditableAddress isIP) = true
  time : isTimestamptz row.atText = true

/-- What the writer does not look at: the strings of the payloads and of the reason, and the year. -/
structure Storable (entry : AuditEntry) : Prop where
  before : everyMember isCharacterText (callerFields entry.before) = true
  after : everyMember isCharacterText (callerFields entry.after) = true
  reason : (entry.reason.map trim).all isCharacterText = true
  year : ∀ millis, entry.atMillis = some millis →
    1 ≤ (civilFromDays (millis / 86400000)).year ∧ (civilFromDays (millis / 86400000)).year ≤ 9999

/-! ### Payloads -/

theorem everyKeyOfMembers_append {good : JsString → Bool} {left right : List (JsString × Value)} :
    everyKeyOfMembers good (left ++ right) =
      (everyKeyOfMembers good left && everyKeyOfMembers good right) := by
  induction left with
  | nil => rfl
  | cons member rest inductionHypothesis =>
      rw [List.cons_append, everyKeyOfMembers, inductionHypothesis, everyKeyOfMembers,
        Bool.and_assoc, Bool.and_assoc, Bool.and_assoc]

mutual

/-- A payload that passed inspection has no secret-shaped key. -/
theorem everyKey_of_inspectPayload {action : JsString} {column : PayloadColumn} :
    ∀ {value : Value} {depth : Nat}, inspectPayload action column value depth = .ok () →
      everyKey isKeptKey value = true
  | value, depth, passed => by
      rw [inspectPayload.eq_def] at passed
      dsimp only at passed
      by_cases deep : depth > MAX_PAYLOAD_DEPTH
      · rw [if_pos deep] at passed
        cases passed
      · rw [if_neg deep] at passed
        cases value with
        | array items => exact everyKey_of_inspectItems passed
        | object members => exact everyKey_of_inspectEntries passed
        | _ => rfl

private theorem everyKey_of_inspectItems {action : JsString} {column : PayloadColumn} :
    ∀ {items : List Value} {depth : Nat}, inspectItems action column items depth = .ok () →
      everyKeyOfItems isKeptKey items = true
  | [], _, _ => rfl
  | item :: rest, depth, passed => by
      rw [inspectItems] at passed
      obtain ⟨_, first, others⟩ := bind_eq_ok.mp passed
      rw [everyKeyOfItems, everyKey_of_inspectPayload first, everyKey_of_inspectItems others]
      rfl

private theorem everyKey_of_inspectEntries {action : JsString} {column : PayloadColumn} :
    ∀ {members : List (JsString × Value)} {depth : Nat},
      inspectEntries action column members depth = .ok () →
        everyKeyOfMembers isKeptKey members = true
  | [], _, _ => rfl
  | (key, nested) :: rest, depth, passed => by
      rw [inspectEntries] at passed
      split at passed
      · cases passed
      · split at passed
        · cases passed
        · rename_i plain
          obtain ⟨_, first, others⟩ := bind_eq_ok.mp passed
          have kept : isKeptKey key = true := by simpa [isKeptKey] using plain
          rw [everyKeyOfMembers, kept, everyKey_of_inspectPayload first,
            everyKey_of_inspectEntries others]
          rfl

end

/-- A caller's `after` that passed inspection leaves the writer its keys. -/
theorem not_reserved_of_inspectEntries {action : JsString} {members : List (JsString × Value)}
    (passed : inspectEntries action .after members 0 = .ok ()) :
    ∀ name ∈ members.map Prod.fst, name ∉ RESERVED_PAYLOAD_KEYS := by
  induction members with
  | nil =>
      intro name inside
      cases inside
  | cons member rest inductionHypothesis =>
      obtain ⟨key, nested⟩ := member
      rw [inspectEntries] at passed
      split at passed
      · cases passed
      · rename_i free
        split at passed
        · cases passed
        · obtain ⟨_, _, others⟩ := bind_eq_ok.mp passed
          intro name inside
          rw [List.map_cons, List.mem_cons] at inside
          rcases inside with rfl | later
          · intro reserved
            exact free ⟨rfl, rfl, by simpa using reserved⟩
          · exact inductionHypothesis others name later

private theorem isPlain_object {members : List (JsString × Value)} :
    isPlain (.object members) = true ↔
      (members.map Prod.fst).Nodup ∧ plainMembers members = true := by
  rw [isPlain, Bool.and_eq_true, decide_eq_true_iff]

private theorem plainMembers_append {left right : List (JsString × Value)} :
    plainMembers (left ++ right) = (plainMembers left && plainMembers right) := by
  induction left with
  | nil => rfl
  | cons member rest inductionHypothesis =>
      obtain ⟨name, value⟩ := member
      rw [List.cons_append, plainMembers, inductionHypothesis, plainMembers, Bool.and_assoc]

theorem isPlain_callerFields (payload : Option AuditPayload) :
    isPlain (.object (callerFields payload)) = true := by
  cases payload with
  | none => rfl
  | some payload => exact payload.plain

private theorem names_ownFields (reason : Option JsString) (actor : AuditActor) :
    ((ownFields reason actor).map Prod.fst).Sublist RESERVED_PAYLOAD_KEYS := by
  have reasonNames : ((reasonField reason).map Prod.fst).Sublist [AUDIT_REASON_KEY] := by
    unfold reasonField
    split
    · split
      · exact List.Sublist.refl _
      · exact List.nil_sublist _
    · exact List.nil_sublist _
  have attemptNames : ((attemptField actor).map Prod.fst).Sublist [AUDIT_ACTOR_ATTEMPT_KEY] := by
    unfold attemptField
    split
    · exact List.Sublist.refl _
    · exact List.nil_sublist _
  rw [ownFields, List.map_append]
  exact reasonNames.append attemptNames

private theorem plainMembers_ownFields (reason : Option JsString) (actor : AuditActor) :
    plainMembers (ownFields reason actor) = true := by
  have reasonPlain : plainMembers (reasonField reason) = true := by
    unfold reasonField
    split
    · split
      · rfl
      · rfl
    · rfl
  have attemptPlain : plainMembers (attemptField actor) = true := by
    unfold attemptField
    split
    · rfl
    · rfl
  rw [ownFields, plainMembers_append, reasonPlain, attemptPlain]
  rfl

/-- The recorded `after` is a plain object. -/
theorem isPlain_append_ownFields {fields : List (JsString × Value)} {reason : Option JsString}
    {actor : AuditActor} (plain : isPlain (.object fields) = true)
    (free : ∀ name ∈ fields.map Prod.fst, name ∉ RESERVED_PAYLOAD_KEYS) :
    isPlain (.object (fields ++ ownFields reason actor)) = true := by
  rw [isPlain_object] at plain ⊢
  have names := names_ownFields reason actor
  constructor
  · rw [List.map_append]
    refine plain.1.append (names.nodup (by decide)) ?_
    intro name inside own
    exact free name inside (names.subset own)
  · rw [plainMembers_append, plain.2, plainMembers_ownFields]
    rfl

/-- The cast of a serialised column. -/
theorem castJsonb_serialise {fields : List (JsString × Value)}
    (plain : isPlain (.object fields) = true) :
    castJsonb (serialise fields) =
      if everyMember isCharacterText fields then some (storedPayload fields) else none := by
  cases fields with
  | nil => rfl
  | cons field others =>
      have read := jsonbOf_jsonText plain
      have filled : jsonText (.object (field :: others)) ≠ js "\x7b\x7d" := by
        intro empty
        rw [empty] at read
        have braces : jsonbOf (js "\x7b\x7d") = some (.object []) := rfl
        rw [braces] at read
        split at read
        · cases read
        · cases read
      rw [serialise, if_neg (List.cons_ne_nil _ _)]
      simp only [if_neg filled]
      rw [castJsonb, read, everyString, storedPayload, if_neg (List.cons_ne_nil _ _)]
      split
      · rfl
      · rfl

/-! ### The writer's own keys -/

private theorem reasonField_filled {text : JsString} (filled : text ≠ []) :
    reasonField (some text) = [(AUDIT_REASON_KEY, .string text)] :=
  if_pos (List.length_pos_iff.mpr filled)

/-- The writer's own keys are stored when the reason can be. -/
theorem everyMember_ownFields (reason : Option JsString) (actor : AuditActor) :
    everyMember isCharacterText (ownFields reason actor) = reason.all isCharacterText := by
  have attempt : everyMember isCharacterText (attemptField actor) = true := by
    unfold attemptField
    split
    · rename_i attemptId
      have text := isCharacterText_of_ascii (isAsciiText_of_isUuid attemptId.valid)
      simp only [everyMember, everyString, text]
      decide
    · rfl
  have key : isCharacterText AUDIT_REASON_KEY = true := by decide
  rw [ownFields, everyMember_append, attempt, Bool.and_true]
  cases reason with
  | none => rfl
  | some text =>
      by_cases empty : text = []
      · subst empty
        rfl
      · rw [reasonField_filled empty, everyMember, everyMember, everyString, key, Bool.and_true,
          Bool.true_and]
        rfl

theorem everyKey_ownFields (reason : Option JsString) (actor : AuditActor) :
    everyKeyOfMembers isKeptKey (ownFields reason actor) = true := by
  have reasonKey : isKeptKey AUDIT_REASON_KEY = true := by decide +kernel
  have attemptKey : isKeptKey AUDIT_ACTOR_ATTEMPT_KEY = true := by decide +kernel
  rw [ownFields, everyKeyOfMembers_append, Bool.and_eq_true]
  unfold reasonField attemptField
  constructor
  · split
    · split
      · rw [everyKeyOfMembers, reasonKey]
        rfl
      · rfl
    · rfl
  · split
    · rw [everyKeyOfMembers, attemptKey]
      rfl
    · rfl

/-! ### The reason -/

private theorem btrim_ne_nil {text : JsString} (trimmed : trim text = text) (filled : text ≠ []) :
    btrim text ≠ [] := by
  intro blank
  rw [btrim, List.rdropWhile_eq_nil_iff] at blank
  apply filled
  rw [← trimmed, trim_eq_nil, List.all_eq_true]
  intro c inside
  have space : c = unit ' ' := by
    by_cases kept : c ∈ text.dropWhile (· == unit ' ')
    · exact beq_iff_eq.mp (blank c kept)
    · rw [← List.takeWhile_append_dropWhile (p := (· == unit ' ')) (l := text),
        List.mem_append] at inside
      have run : (c == unit ' ') = true :=
        List.mem_takeWhile_imp (p := (· == unit ' ')) (inside.resolve_right kept)
      exact beq_iff_eq.mp run
  rw [space]
  decide

/-- An action that requires a reason leaves one the constraint accepts. -/
theorem auditLogReasonRequired_recorded {action : JsString} {reason : Option JsString}
    {actor : AuditActor} {fields : List (JsString × Value)}
    (free : ∀ name ∈ fields.map Prod.fst, name ∉ RESERVED_PAYLOAD_KEYS)
    (given : requiresReason action = true →
      ∃ text, reason = some text ∧ text ≠ [] ∧ trim text = text) :
    auditLogReasonRequired action (storedPayload (fields ++ ownFields reason actor)) = true := by
  by_cases required : requiresReason action = true
  · obtain ⟨text, rfl, filled, trimmed⟩ := given required
    have absent : AUDIT_REASON_KEY ∉ fields.map Prod.fst := fun inside =>
      free _ inside List.mem_cons_self
    have own := reasonField_filled filled
    have stored : storedPayload (fields ++ ownFields (some text) actor) =
        some (.object (fields ++ ownFields (some text) actor)) := by
      apply if_neg
      simp [ownFields, own]
    have attempt : AUDIT_REASON_KEY ∉ (attemptField actor).map Prod.fst := by
      unfold attemptField
      split
      · rw [List.map_cons, List.map_nil, List.mem_singleton]
        show AUDIT_REASON_KEY ≠ AUDIT_ACTOR_ATTEMPT_KEY
        decide
      · simp
    have found : member? (fields ++ ownFields (some text) actor) AUDIT_REASON_KEY =
        some (.string text) := by
      rw [member?_append_right absent, ownFields, own, member?_append_left attempt,
        member?_single]
    have read : fieldText? (.object (fields ++ ownFields (some text) actor)) (js "reason") =
        some text := by
      show (match member? (fields ++ ownFields (some text) actor) AUDIT_REASON_KEY with
        | none => none
        | some .null => none
        | some (.string text) => some text
        | some other => some (jsonText other)) = some text
      rw [found]
    rw [auditLogReasonRequired, stored, Option.bind_some, read, Bool.or_eq_true]
    exact .inr (bne_iff_ne.mpr (btrim_ne_nil trimmed filled))
  · rw [requiresReason, Bool.or_eq_true, not_or, Bool.not_eq_true, Bool.not_eq_true] at required
    have listed : [js "attempt.void", js "attempt.regrade", js "score.override"].contains action =
        false := required.1
    have job : (js "job.").isPrefixOf action = false := required.2
    rw [auditLogReasonRequired, listed, job]
    rfl

/-! ### The actor -/

/-- A row without a user is told apart by its action. -/
theorem actorColumn_none {actor : AuditActor} {action : JsString} {userId : Option BrandedId}
    (written : actorColumn actor action = .ok userId) :
    userId = none ↔ CANDIDATE_ACTION_PREFIX <+: action ∨ JOB_ACTION_PREFIX <+: action := by
  rw [← List.isPrefixOf_iff_prefix, ← List.isPrefixOf_iff_prefix]
  unfold actorColumn at written
  cases actor with
  | staff id =>
      simp only at written
      split at written
      · cases written
      · rename_i others
        cases written
        simp only [Bool.or_eq_true, not_or] at others
        constructor
        · intro impossible
          cases impossible
        · rintro (candidate | job)
          · exact absurd candidate others.2
          · exact absurd job others.1
  | candidate attemptId =>
      simp only at written
      split at written
      · rename_i candidate
        cases written
        exact ⟨fun _ => .inl candidate, fun _ => rfl⟩
      · cases written
  | job =>
      simp only at written
      split at written
      · rename_i job
        cases written
        exact ⟨fun _ => .inr job, fun _ => rfl⟩
      · cases written

/-! ### The time -/

private theorem fieldText_year {year : Int} (nonneg : 0 ≤ year) (below : year ≤ 9999) :
    (fieldText 4 year).length = 4 ∧ (∀ c ∈ fieldText 4 year, isDigit c = true) ∧
      (fieldText 4 year = js "0000" ↔ year = 0) := by
  have short : (natText year.toNat).length ≤ 4 := by
    by_cases zero : year.toNat = 0
    · rw [zero]
      decide
    · rw [length_natText_le_iff zero]
      omega
  refine ⟨?_, ?_, ?_⟩
  · rw [fieldText, padStart, List.length_append, List.length_replicate]
    omega
  · intro c inside
    rw [fieldText, padStart, List.mem_append] at inside
    rcases inside with zero | digit
    · rw [List.eq_of_mem_replicate zero]
      decide
    · exact isDigit_natText digit
  · constructor
    · intro zeros
      have tail : natText year.toNat ∈ (js "0000").tails := by
        rw [List.mem_tails, ← zeros]
        exact List.suffix_append _ _
      have value : parseDigits 10 (natText year.toNat) = 0 :=
        (by decide : ∀ part ∈ (js "0000").tails, parseDigits 10 part = 0) _ tail
      rw [parseDigits_natText] at value
      omega
    · rintro rfl
      decide

/-- The years `timestamptz` reads in the text of an instant. -/
theorem isTimestamptz_toISOString (millis : Int) :
    isTimestamptz (toISOString millis) = true ↔
      1 ≤ (civilFromDays (millis / 86400000)).year ∧
        (civilFromDays (millis / 86400000)).year ≤ 9999 := by
  obtain ⟨rest, text⟩ : ∃ rest, toISOString millis =
      isoYear (civilFromDays (millis / 86400000)).year ++ rest := by
    simp only [toISOString, List.append_assoc]
    exact ⟨_, rfl⟩
  rw [text]
  generalize (civilFromDays (millis / 86400000)).year = year
  unfold isTimestamptz isoYear
  by_cases plain : 0 ≤ year ∧ year ≤ 9999
  · obtain ⟨length, digits, zeros⟩ := fieldText_year plain.1 plain.2
    rw [if_pos plain]
    obtain ⟨first, others, same⟩ := List.exists_cons_of_ne_nil
      (List.length_pos_iff.mp (by omega : 0 < (fieldText 4 year).length))
    have head : (fieldText 4 year ++ rest).head?.any isDigit = true := by
      have digit := digits first (same ▸ List.mem_cons_self)
      rw [same]
      exact digit
    have zero : (js "0000").isPrefixOf (fieldText 4 year ++ rest) = true ↔ year = 0 := by
      rw [List.isPrefixOf_iff_prefix, ← zeros]
      constructor
      · intro within
        exact (List.IsPrefix.eq_of_length
          (List.prefix_of_prefix_length_le within (List.prefix_append _ _) length.ge) length.symm).symm
      · intro whole
        rw [whole]
        exact List.prefix_append _ _
    rw [head, Bool.true_and, Bool.not_eq_true', ← Bool.not_eq_true, zero]
    omega
  · rw [if_neg plain]
    have sign : ((js (if year < 0 then "-" else "+") ++ fieldText 6 year.natAbs ++ rest).head?.any
        isDigit) = false := by
      split
      · rfl
      · rfl
    rw [sign, Bool.false_and]
    constructor
    · intro impossible
      cases impossible
    · rintro ⟨low, high⟩
      exact absurd ⟨by omega, high⟩ plain

/-! ### Accepted entries -/

/-- What the writer has checked of an entry it accepts, and the row it made of it. -/
structure Accepted (isIP : JsString → Nat) (entry : AuditEntry) (row : PreparedAuditEntry) :
    Prop where
  action : preparedAction entry = .ok row.action
  entityType : preparedEntityType row.action entry = .ok row.entityType
  entityId : preparedEntityId row.action entry = .ok row.entityId
  reason : preparedReason row.action entry = .ok (entry.reason.map trim)
  actor : actorColumn entry.actor row.action = .ok row.actorUserId
  inspectedBefore : inspectColumn row.action .before entry.before = .ok ()
  inspectedAfter : inspectColumn row.action .after entry.after = .ok ()
  before : row.before = serialise (callerFields entry.before)
  after : row.after = serialise (recordedAfter entry)
  budget : payloadBytes row.before row.after ≤ MAX_PAYLOAD_BYTES
  ip : preparedIp isIP row.action entry = .ok row.ip
  time : ∃ millis, entry.atMillis = some millis ∧ row.atText = toISOString millis

private theorem preparedReason_eq_ok {action : JsString} {entry : AuditEntry}
    {reason : Option JsString} (read : preparedReason action entry = .ok reason) :
    reason = entry.reason.map trim := by
  unfold preparedReason at read
  simp only at read
  split at read
  · cases read
  · split at read
    · cases read
    · cases read
      rfl

theorem prepareAuditEntry_accepted {isIP : JsString → Nat} {entry : AuditEntry}
    {row : PreparedAuditEntry} (prepared : prepareAuditEntry isIP entry = .ok row) :
    Accepted isIP entry row := by
  unfold prepareAuditEntry at prepared
  obtain ⟨action, readAction, prepared⟩ := bind_eq_ok.mp prepared
  obtain ⟨entityType, readType, prepared⟩ := bind_eq_ok.mp prepared
  obtain ⟨entityId, readId, prepared⟩ := bind_eq_ok.mp prepared
  obtain ⟨reason, readReason, prepared⟩ := bind_eq_ok.mp prepared
  obtain ⟨actorUserId, readActor, prepared⟩ := bind_eq_ok.mp prepared
  obtain ⟨_, inspectedBefore, prepared⟩ := bind_eq_ok.mp prepared
  obtain ⟨_, inspectedAfter, prepared⟩ := bind_eq_ok.mp prepared
  have sameReason := preparedReason_eq_ok readReason
  subst sameReason
  simp only at prepared
  split at prepared
  · cases prepared
  · rename_i budget
    split at prepared
    · cases prepared
    · rename_i millis time
      obtain ⟨ip, readIp, prepared⟩ := bind_eq_ok.mp prepared
      cases prepared
      exact ⟨readAction, readType, readId, readReason, readActor, inspectedBefore, inspectedAfter,
        rfl, rfl, Nat.le_of_not_gt budget, readIp, millis, time, rfl⟩

section Accepted

variable {isIP : JsString → Nat} {entry : AuditEntry} {row : PreparedAuditEntry}

private theorem entries_of_inspectColumn {action : JsString} {column : PayloadColumn}
    {payload : Option AuditPayload} (passed : inspectColumn action column payload = .ok ()) :
    inspectEntries action column (callerFields payload) 0 = .ok () := by
  cases payload with
  | none => rfl
  | some payload =>
      rw [inspectColumn, inspectPayload.eq_def] at passed
      exact passed

theorem Accepted.free (accepted : Accepted isIP entry row) :
    ∀ name ∈ (callerFields entry.after).map Prod.fst, name ∉ RESERVED_PAYLOAD_KEYS :=
  not_reserved_of_inspectEntries (entries_of_inspectColumn accepted.inspectedAfter)

/-- A reason that is required is given, and is not blank. -/
theorem Accepted.reason_given (accepted : Accepted isIP entry row)
    (required : requiresReason row.action = true) :
    ∃ text, entry.reason.map trim = some text ∧ text ≠ [] ∧ trim text = text := by
  have read := accepted.reason
  unfold preparedReason at read
  simp only [required, Bool.and_true] at read
  split at read
  · cases read
  · split at read
    · cases read
    · rename_i given
      cases written : entry.reason with
      | none => simp [written] at given
      | some raw =>
          refine ⟨trim raw, rfl, ?_, trim_trim raw⟩
          intro empty
          simp [written, empty] at given

theorem Accepted.entityId_valid (accepted : Accepted isIP entry row) :
    row.entityId.all isUuid = true := by
  have read := accepted.entityId
  unfold preparedEntityId at read
  split at read
  · rw [← Except.ok.inj read]
    rfl
  · split at read
    · rename_i uuid
      rw [← Except.ok.inj read]
      exact uuid
    · cases read

theorem Accepted.ip_valid (accepted : Accepted isIP entry row) :
    row.ip.all (isAuditableAddress isIP) = true := by
  have read := accepted.ip
  unfold preparedIp at read
  split at read
  · rw [← Except.ok.inj read]
    rfl
  · split at read
    · rw [← Except.ok.inj read]
      rfl
    · split at read
      · rename_i address
        rw [← Except.ok.inj read]
        exact address
      · cases read

theorem Accepted.keys_kept (accepted : Accepted isIP entry row) :
    everyKeyOfMembers isKeptKey (callerFields entry.before ++ recordedAfter entry) = true := by
  rw [recordedAfter, everyKeyOfMembers_append, everyKeyOfMembers_append,
    everyKey_of_inspectEntries (entries_of_inspectColumn accepted.inspectedBefore),
    everyKey_of_inspectEntries (entries_of_inspectColumn accepted.inspectedAfter),
    everyKey_ownFields]
  rfl

private theorem ite_some_eq {α : Type} {stored : Bool} {value : α} :
    (if stored then some value else none) = some value ↔ stored = true := by
  cases stored with
  | false => simp
  | true => simp

theorem Accepted.castBefore (accepted : Accepted isIP entry row) :
    castJsonb row.before = some (storedPayload (callerFields entry.before)) ↔
      everyMember isCharacterText (callerFields entry.before) = true := by
  rw [accepted.before, castJsonb_serialise (isPlain_callerFields entry.before), ite_some_eq]

theorem Accepted.plainAfter (accepted : Accepted isIP entry row) :
    isPlain (.object (recordedAfter entry)) = true :=
  isPlain_append_ownFields (isPlain_callerFields entry.after) accepted.free

theorem Accepted.castAfter (accepted : Accepted isIP entry row) :
    castJsonb row.after = some (storedPayload (recordedAfter entry)) ↔
      everyMember isCharacterText (callerFields entry.after) = true ∧
        (entry.reason.map trim).all isCharacterText = true := by
  rw [accepted.after, castJsonb_serialise accepted.plainAfter, ite_some_eq, recordedAfter,
    everyMember_append, everyMember_ownFields, Bool.and_eq_true]

theorem Accepted.time_read (accepted : Accepted isIP entry row) :
    isTimestamptz row.atText = true ↔ ∀ millis, entry.atMillis = some millis →
      1 ≤ (civilFromDays (millis / 86400000)).year ∧
        (civilFromDays (millis / 86400000)).year ≤ 9999 := by
  obtain ⟨millis, time, text⟩ := accepted.time
  rw [text, isTimestamptz_toISOString, time]
  constructor
  · rintro bounds _ ⟨⟩
    exact bounds
  · intro bounds
    exact bounds millis rfl

end Accepted

/-- What the table takes of the accepted entries. -/
theorem prepareAuditEntry_lawful {isIP : JsString → Nat} {entry : AuditEntry}
    {row : PreparedAuditEntry} (prepared : prepareAuditEntry isIP entry = .ok row) :
    LawfulRow isIP entry row ↔ Storable entry := by
  have accepted := prepareAuditEntry_accepted prepared
  constructor
  · intro lawful
    obtain ⟨after, reason⟩ := accepted.castAfter.mp lawful.after
    exact ⟨accepted.castBefore.mp lawful.before, after, reason, accepted.time_read.mp lawful.time⟩
  · intro storable
    exact {
      before := accepted.castBefore.mpr storable.before
      after := accepted.castAfter.mpr ⟨storable.after, storable.reason⟩
      reason := auditLogReasonRequired_recorded accepted.free accepted.reason_given
      actor := actorColumn_none accepted.actor
      secrets := accepted.keys_kept
      budget := accepted.budget
      entityId := accepted.entityId_valid
      ip := accepted.ip_valid
      time := accepted.time_read.mpr storable.year }

/-- A void, without payloads and with some reason. -/
private def voided (reason : JsString) : AuditEntry where
  orgId := ⟨js "00000000-0000-0000-0000-000000000000", by decide⟩
  actor := .staff ⟨js "3f2b8c1e-7d4a-4b6f-9a51-2c8e0d7f6b13", by decide +kernel⟩
  action := js "attempt.void"
  entityType := js "attempt"
  entityId := none
  before := none
  after := some ⟨[(js "status", .string (js "voided"))], rfl⟩
  reason := some reason
  ip := some (js "203.0.113.7")
  atMillis := some 1789552800000

/-- `net.isIP` on the address above. -/
private def isDocumented (address : JsString) : Nat := if address = js "203.0.113.7" then 4 else 0

private theorem exists_of_isOk {ε α : Type} {made : Except ε α} (ok : made.isOk = true) :
    ∃ a, made = .ok a := by
  cases made with
  | error e => cases ok
  | ok a => exact ⟨a, rfl⟩

/-- A reason of characters is recorded. -/
theorem prepareAuditEntry_lawful_example :
    ∃ row, prepareAuditEntry isDocumented (voided (js " Power cut ")) = .ok row ∧
      LawfulRow isDocumented (voided (js " Power cut ")) row := by
  obtain ⟨row, prepared⟩ := exists_of_isOk
    (by decide +kernel : (prepareAuditEntry isDocumented (voided (js " Power cut "))).isOk = true)
  refine ⟨row, prepared, (prepareAuditEntry_lawful prepared).mpr ⟨by decide, by decide, by decide, ?_⟩⟩
  rintro _ ⟨⟩
  decide +kernel

/-- A reason with U+0000 is accepted, and the insert of its row raises. -/
theorem accepted_reason_aborts :
    ∃ row, prepareAuditEntry isDocumented (voided (js "Power" ++ [0] ++ js "cut")) = .ok row ∧
      castJsonb row.after = none ∧
        ¬ LawfulRow isDocumented (voided (js "Power" ++ [0] ++ js "cut")) row := by
  obtain ⟨row, prepared⟩ := exists_of_isOk (by decide +kernel : (prepareAuditEntry isDocumented
    (voided (js "Power" ++ [0] ++ js "cut"))).isOk = true)
  have refused : castJsonb row.after = none := by
    have accepted := prepareAuditEntry_accepted prepared
    rw [accepted.after, castJsonb_serialise accepted.plainAfter]
    exact if_neg (by decide)
  refine ⟨row, prepared, refused, ?_⟩
  intro lawful
  have taken := lawful.after
  rw [refused] at taken
  cases taken

end Assaybank.Db
