import Assaybank.Library.Framing
import Assaybank.Runtime.SafeInteger

/-!
Owns the wire format of the collaboration server (`apps/collab/src/protocol.ts`): base-128 integers,
length-prefixed byte strings, and the frames made of them.

Contract: what the writers encode the readers give back, whatever bytes follow, and the frames of
the encoders decode to what they carry while no proper prefix of one decodes
(`wire_exact`). The sum of `readVarUint` is rounded to a double at each byte.

A byte array is a list. A payload of more than `MAX_SAFE_INTEGER` bytes, which no `Uint8Array` holds,
is refused by the writer of its length.
-/

namespace Assaybank.Collab

open Assaybank.Runtime Assaybank.Library

abbrev Bytes := List UInt8

def MESSAGE_SYNC : Nat := 0

/-- Cursors, selections and presence. Relayed, never interpreted. -/
def MESSAGE_AWARENESS : Nat := 1

def MESSAGE_QUERY_AWARENESS : Nat := 3

def SYNC_STEP_1 : Nat := 0

def SYNC_STEP_2 : Nat := 1

def SYNC_UPDATE : Nat := 2

/-- Seven payload bits per byte. -/
def BITS_7 : Nat := 127

/-- The continuation bit. -/
def BIT_8 : Nat := 128

def BASE : Nat := 128

/-- A frame that does not decode, with what its text is made of. -/
inductive ProtocolError where
  /-- `varUint must be a non-negative safe integer, got ${value}.` -/
  | notAVarUint (value : JsDouble)
  /-- `frame ended inside a varUint.` -/
  | endedInsideVarUint
  /-- `varUint exceeds the safe integer range.` -/
  | exceedsSafeRange
  /-- `frame declares ${length} bytes but only ${remaining} remain.` -/
  | overrun (length remaining : Nat)
  /-- `unknown sync step ${step}.` -/
  | unknownSyncStep (step : Nat)
deriving DecidableEq

/-! ### Writers -/

/-- The loop of `writeVarUint`. -/
def varUintBytes (remaining : Nat) : Bytes :=
  if BITS_7 < remaining then
    UInt8.ofNat (BIT_8 ||| (BITS_7 &&& remaining)) :: varUintBytes (remaining / BASE)
  else [UInt8.ofNat (BITS_7 &&& remaining)]
termination_by remaining
decreasing_by
  rename_i more
  exact Nat.div_lt_self (Nat.zero_lt_of_lt more) (by decide)

def writeVarUint (value : JsDouble) : Except ProtocolError Bytes :=
  match value with
  | .finite number =>
      if value.isSafeInteger ∧ 0 ≤ number then .ok (varUintBytes number.num.toNat)
      else .error (.notAVarUint value)
  | _ => .error (.notAVarUint value)

/-- Joins encoded fragments into one frame. -/
def concatBytes (parts : List Bytes) : Bytes := parts.flatten

def writeVarUint8Array (bytes : Bytes) : Except ProtocolError Bytes := do
  return concatBytes [← writeVarUint (.finite bytes.length), bytes]

/-! ### Readers -/

abbrev FrameReader := Cursor UInt8

/-- A reader of a frame. -/
abbrev FrameReading := Reading UInt8 ProtocolError

/-- How many bytes are left. -/
def remaining (reader : FrameReader) : Nat := reader.symbols.length - reader.position

/-- The loop of `readVarUint`, with the value so far and the weight of the next byte. -/
def readVarUintFrom (value multiplier : Nat) (reader : FrameReader) :
    Except ProtocolError (Nat × FrameReader) :=
  match _here : reader.symbols[reader.position]? with
  | none => .error .endedInsideVarUint
  | some byte =>
      let value := nearestDouble (value + (byte.toNat &&& BITS_7) * multiplier)
      if byte.toNat < BIT_8 then
        if value ≤ JsDouble.MAX_SAFE_INTEGER then .ok (value, reader.advance 1)
        else .error .exceedsSafeRange
      else
        let multiplier := multiplier * BASE
        if JsDouble.MAX_SAFE_INTEGER < multiplier then .error .exceedsSafeRange
        else readVarUintFrom value multiplier (reader.advance 1)
termination_by reader.symbols.length - reader.position
decreasing_by
  have inside := (List.getElem?_eq_some_iff.mp _here).1
  simp only [Cursor.advance_symbols, Cursor.advance_position]
  omega

def readVarUint : FrameReading Nat := readVarUintFrom 0 1

/-- The bytes of the frame from `length` on the reader is at, which it moves past. -/
def takeBytes (length : Nat) : FrameReading Bytes := fun reader =>
  if remaining reader < length then .error (.overrun length (remaining reader))
  else .ok (reader.rest.take length, reader.advance length)

def readVarUint8Array : FrameReading Bytes := do
  let length ← readVarUint
  takeBytes length

/-! ### Frames -/

/-- A sync frame of one step. -/
def encodeSync (step : Nat) (payload : Bytes) : Except ProtocolError Bytes := do
  return concatBytes [← writeVarUint (.finite MESSAGE_SYNC), ← writeVarUint (.finite step),
    ← writeVarUint8Array payload]

/-- This side's state vector, asking for the difference. -/
def encodeSyncStep1 (stateVector : Bytes) : Except ProtocolError Bytes :=
  encodeSync SYNC_STEP_1 stateVector

/-- The difference the peer asked for. -/
def encodeSyncStep2 (update : Bytes) : Except ProtocolError Bytes := encodeSync SYNC_STEP_2 update

/-- One incremental update. -/
def encodeSyncUpdate (update : Bytes) : Except ProtocolError Bytes := encodeSync SYNC_UPDATE update

def encodeAwareness (payload : Bytes) : Except ProtocolError Bytes := do
  return concatBytes [← writeVarUint (.finite MESSAGE_AWARENESS), ← writeVarUint8Array payload]

/-- The decoded shape of an inbound frame. -/
inductive InboundFrame where
  | syncStep1 (stateVector : Bytes)
  | syncStep2 (update : Bytes)
  | syncUpdate (update : Bytes)
  | awareness (payload : Bytes)
  | queryAwareness
  /-- A frame of a type this service has no behaviour for. -/
  | ignored (messageType : Nat)
deriving DecidableEq

/-- What follows the step of a sync frame. -/
def readSyncStep (step : Nat) : FrameReading InboundFrame :=
  if step = SYNC_STEP_1 then do return .syncStep1 (← readVarUint8Array)
  else if step = SYNC_STEP_2 then do return .syncStep2 (← readVarUint8Array)
  else if step = SYNC_UPDATE then do return .syncUpdate (← readVarUint8Array)
  else throw (.unknownSyncStep step)

/-- What follows the tag of a frame. -/
def readMessage (messageType : Nat) : FrameReading InboundFrame :=
  if messageType = MESSAGE_SYNC then do
    let step ← readVarUint
    readSyncStep step
  else if messageType = MESSAGE_AWARENESS then do return .awareness (← readVarUint8Array)
  else if messageType = MESSAGE_QUERY_AWARENESS then return .queryAwareness
  else return .ignored messageType

def readFrame : FrameReading InboundFrame := do
  let messageType ← readVarUint
  readMessage messageType

/-- Parses one inbound frame. -/
def decodeFrame (bytes : Bytes) : Except ProtocolError InboundFrame :=
  (readFrame.run ⟨bytes, 0⟩).map Prod.fst

/-! ### Base-128 integers -/

private theorem and_bits7 (n : Nat) : n &&& BITS_7 = n % BASE := Nat.and_two_pow_sub_one_eq_mod n 7

/-- A byte with the continuation bit. -/
private theorem toNat_more (n : Nat) :
    (UInt8.ofNat (BIT_8 ||| (BITS_7 &&& n))).toNat = n % BASE + BIT_8 := by
  have group : n % BASE < 2 ^ 7 := Nat.mod_lt n (by decide)
  have joined : BIT_8 ||| n % BASE = n % BASE + BIT_8 := by
    have sum := Nat.two_pow_add_eq_or_of_lt group 1
    rw [Nat.mul_one] at sum
    exact sum.symm.trans (Nat.add_comm _ _)
  have byte : n % BASE + BIT_8 < 2 ^ 8 := Nat.add_lt_add_right group BIT_8
  rw [Nat.and_comm, and_bits7, joined, UInt8.toNat_ofNat', Nat.mod_eq_of_lt byte]

/-- The last byte of an integer. -/
private theorem toNat_last {n : Nat} (small : n ≤ BITS_7) :
    (UInt8.ofNat (BITS_7 &&& n)).toNat = n := by
  have group : n < BASE := Nat.lt_succ_of_le small
  have byte : n < 2 ^ 8 := group.trans (by decide)
  rw [Nat.and_comm, and_bits7, Nat.mod_eq_of_lt group, UInt8.toNat_ofNat', Nat.mod_eq_of_lt byte]

/-- The loop on a byte with the continuation bit, where the sum and the next weight are safe. -/
private theorem readVarUintFrom_more {value multiplier group : Nat} {reader : FrameReader}
    {byte : UInt8} {after : Bytes} (here : reader.rest = byte :: after)
    (more : byte.toNat = group + BIT_8) (low : group < BASE)
    (fits : value + group * multiplier ≤ JsDouble.MAX_SAFE_INTEGER)
    (weight : multiplier * BASE ≤ JsDouble.MAX_SAFE_INTEGER) :
    readVarUintFrom value multiplier reader =
      readVarUintFrom (value + group * multiplier) (multiplier * BASE) (reader.advance 1) := by
  have payload : byte.toNat &&& BITS_7 = group := by
    rw [and_bits7, more]
    show (group + BASE) % BASE = group
    rw [Nat.add_mod_right, Nat.mod_eq_of_lt low]
  have exact : nearestDouble (value + group * multiplier) = value + group * multiplier :=
    nearestDouble_eq (Nat.lt_of_le_of_lt fits (by decide))
  have continues : ¬ byte.toNat < BIT_8 := by
    rw [more]
    exact Nat.not_lt.mpr (Nat.le_add_left _ _)
  rw [readVarUintFrom]
  split
  · rename_i ended
    rw [Cursor.rest_head here] at ended
    cases ended
  · rename_i found inside
    rw [Cursor.rest_head here] at inside
    cases inside
    dsimp only
    rw [payload, exact, if_neg continues, if_neg (Nat.not_lt.mpr weight)]

/-- The loop on a last byte, where the sum is safe. -/
private theorem readVarUintFrom_last {value multiplier group : Nat} {reader : FrameReader}
    {byte : UInt8} {after : Bytes} (here : reader.rest = byte :: after)
    (last : byte.toNat = group) (low : group < BASE)
    (fits : value + group * multiplier ≤ JsDouble.MAX_SAFE_INTEGER) :
    readVarUintFrom value multiplier reader =
      .ok (value + group * multiplier, reader.advance 1) := by
  have payload : byte.toNat &&& BITS_7 = group := by
    rw [and_bits7, last, Nat.mod_eq_of_lt low]
  have exact : nearestDouble (value + group * multiplier) = value + group * multiplier :=
    nearestDouble_eq (Nat.lt_of_le_of_lt fits (by decide))
  have ends : byte.toNat < BIT_8 := by
    rw [last]
    exact low
  rw [readVarUintFrom]
  split
  · rename_i ended
    rw [Cursor.rest_head here] at ended
    cases ended
  · rename_i found inside
    rw [Cursor.rest_head here] at inside
    cases inside
    dsimp only
    rw [payload, exact, if_pos ends, if_pos fits]

private theorem readVarUintFrom_ended {value multiplier : Nat} {reader : FrameReader}
    (nothing : reader.rest = []) :
    readVarUintFrom value multiplier reader = .error .endedInsideVarUint := by
  rw [readVarUintFrom]
  split
  · rfl
  · rename_i byte inside
    rw [Cursor.rest_eq_nil.mp nothing] at inside
    cases inside

/-- The loop reads what is left of a safe integer, lowest groups first. By induction on what the
writer has still to write. -/
private theorem codes_varUintFrom {value multiplier left : Nat}
    (fits : value + left * multiplier ≤ JsDouble.MAX_SAFE_INTEGER) :
    Codes (readVarUintFrom value multiplier : FrameReading Nat) (varUintBytes left)
      (value + left * multiplier) := by
  fun_induction varUintBytes left generalizing value multiplier with
  | case1 left more inductionHypothesis =>
      have split : left = left % BASE + BASE * (left / BASE) := (Nat.mod_add_div left BASE).symm
      have spread : value + left * multiplier =
          value + left % BASE * multiplier + left / BASE * (multiplier * BASE) := by
        calc
          value + left * multiplier
              = value + (left % BASE + BASE * (left / BASE)) * multiplier := by rw [← split]
          _ = value + left % BASE * multiplier + left / BASE * (multiplier * BASE) := by ring
      have low : left % BASE < BASE := Nat.mod_lt left (by decide)
      have sumFits : value + left % BASE * multiplier ≤ JsDouble.MAX_SAFE_INTEGER := by
        rw [spread] at fits
        exact (Nat.le_add_right _ _).trans fits
      have weight : multiplier * BASE ≤ JsDouble.MAX_SAFE_INTEGER := by
        calc
          multiplier * BASE ≤ multiplier * left := Nat.mul_le_mul_left _ more
          _ = left * multiplier := Nat.mul_comm _ _
          _ ≤ value + left * multiplier := Nat.le_add_left _ _
          _ ≤ JsDouble.MAX_SAFE_INTEGER := fits
      have onward := inductionHypothesis (spread ▸ fits)
      rw [← spread] at onward
      constructor
      · intro reader after here
        rw [List.cons_append] at here
        have rest : (reader.advance 1).rest = varUintBytes (left / BASE) ++ after :=
          Cursor.rest_next here
        rw [readVarUintFrom_more here (toNat_more left) low sumFits weight,
          onward.whole _ after rest, Cursor.advance_advance, List.length_cons, Nat.add_comm 1]
      · intro reader part proper
        cases shape : reader.rest with
        | nil => exact ⟨_, readVarUintFrom_ended shape⟩
        | cons byte after =>
            rw [shape] at part proper
            obtain ⟨same, inside⟩ := List.cons_prefix_cons.mp part
            have rest : (reader.advance 1).rest = after := Cursor.rest_next shape
            obtain ⟨error, failed⟩ := onward.short (reader.advance 1)
              (by rw [rest]; exact inside)
              (by rw [rest]; intro whole; exact proper (by rw [same, whole]))
            refine ⟨error, ?_⟩
            rw [readVarUintFrom_more shape (by rw [same]; exact toNat_more left) low sumFits weight]
            exact failed
  | case2 left small =>
      have last := toNat_last (Nat.le_of_not_lt small)
      have low : left < BASE := Nat.lt_succ_of_le (Nat.le_of_not_lt small)
      constructor
      · intro reader after here
        exact readVarUintFrom_last here last low fits
      · intro reader part proper
        cases shape : reader.rest with
        | nil => exact ⟨_, readVarUintFrom_ended shape⟩
        | cons byte after =>
            rw [shape] at part proper
            obtain ⟨same, inside⟩ := List.cons_prefix_cons.mp part
            rw [List.prefix_nil.mp inside, same] at proper
            exact absurd rfl proper

/-- Every non-negative safe integer is written, and read back. -/
theorem codes_varUint {n : Nat} (safe : n ≤ JsDouble.MAX_SAFE_INTEGER) :
    writeVarUint (.finite n) = .ok (varUintBytes n) ∧ Codes readVarUint (varUintBytes n) n := by
  constructor
  · have accepted : JsDouble.isSafeInteger (.finite n) = true ∧ (0 : ℚ) ≤ n :=
      ⟨JsDouble.isSafeInteger_natCast.mpr safe, Nat.cast_nonneg n⟩
    rw [writeVarUint, if_pos accepted]
    rfl
  · have codes : Codes (readVarUintFrom 0 1 : FrameReading Nat) (varUintBytes n) (0 + n * 1) :=
      codes_varUintFrom (by rwa [Nat.zero_add, Nat.mul_one])
    rwa [Nat.zero_add, Nat.mul_one] at codes

/-- What `readVarUint` returns is a safe integer, whatever the bytes, and it has read at least one
and at most eight of them. By induction on the loop. -/
theorem readVarUintFrom_safe {value multiplier bytes : Nat} {reader next : FrameReader} {n : Nat}
    (weight : multiplier = BASE ^ bytes) (few : bytes < 8)
    (read : readVarUintFrom value multiplier reader = .ok (n, next)) :
    n ≤ JsDouble.MAX_SAFE_INTEGER ∧ next.symbols = reader.symbols ∧ reader.position < next.position ∧
      next.position + bytes ≤ reader.position + 8 := by
  fun_induction readVarUintFrom value multiplier reader generalizing bytes with
  | case1 => cases read
  | case2 value multiplier reader byte here sum last =>
      rename_i safe
      rw [Except.ok.injEq, Prod.mk.injEq] at read
      rw [← read.1, ← read.2, Cursor.advance_position]
      exact ⟨safe, rfl, Nat.lt_succ_self _, by omega⟩
  | case3 => cases read
  | case4 => cases read
  | case5 value multiplier reader byte here sum more =>
      rename_i fits inductionHypothesis
      have nextWeight : multiplier * BASE = BASE ^ (bytes + 1) := by
        rw [pow_succ, ← weight]
      have stillFew : bytes + 1 < 8 := by
        by_contra many
        have large : BASE ^ 8 ≤ multiplier * BASE := by
          rw [nextWeight]
          exact Nat.pow_le_pow_right (by decide) (Nat.le_of_not_lt many)
        exact fits (Nat.lt_of_lt_of_le (by decide) large)
      obtain ⟨safe, same, onward, bound⟩ := inductionHypothesis nextWeight stillFew read
      rw [Cursor.advance_position] at onward bound
      exact ⟨safe, same, by omega, by omega⟩

/-! ### Byte strings -/

theorem codes_takeBytes (payload : Bytes) : Codes (takeBytes payload.length) payload payload where
  whole := by
    intro reader after here
    have enough : ¬ remaining reader < payload.length := by
      have length : reader.rest.length = remaining reader := List.length_drop
      rw [← length, here, List.length_append]
      omega
    rw [takeBytes, if_neg enough, here, List.take_left]
  short := by
    intro reader part proper
    have few : remaining reader < payload.length := by
      have length : reader.rest.length = remaining reader := List.length_drop
      rw [← length]
      exact lt_of_le_of_ne part.length_le (fun same => proper (part.eq_of_length same))
    exact ⟨_, if_pos few⟩

theorem codes_varUint8Array {payload : Bytes} (safe : payload.length ≤ JsDouble.MAX_SAFE_INTEGER) :
    writeVarUint8Array payload = .ok (varUintBytes payload.length ++ payload) ∧
      Codes readVarUint8Array (varUintBytes payload.length ++ payload) payload := by
  obtain ⟨written, codes⟩ := codes_varUint safe
  constructor
  · rw [writeVarUint8Array, written]
    show Except.ok [varUintBytes payload.length, payload].flatten = _
    rw [List.flatten_cons, List.flatten_cons, List.flatten_nil, List.append_nil]
  · exact codes.bind (codes_takeBytes payload)

/-! ### Frames -/

/-- What an encoder writes decodes to a frame, and no proper prefix of it decodes. -/
def Inverts (encode : Bytes → Except ProtocolError Bytes) (frame : Bytes → InboundFrame) : Prop :=
  ∀ payload : Bytes, payload.length ≤ JsDouble.MAX_SAFE_INTEGER →
    ∃ bytes, encode payload = .ok bytes ∧ decodeFrame bytes = .ok (frame payload) ∧
      ∀ part, part <+: bytes → part ≠ bytes → ∃ error, decodeFrame part = .error error

/-- A frame that is a code for what `readFrame` gives. -/
private theorem inverts_of_codes {encode : Bytes → Except ProtocolError Bytes}
    {frame : Bytes → InboundFrame}
    (codes : ∀ payload : Bytes, payload.length ≤ JsDouble.MAX_SAFE_INTEGER →
      ∃ bytes, encode payload = .ok bytes ∧ Codes readFrame bytes (frame payload)) :
    Inverts encode frame := by
  intro payload safe
  obtain ⟨bytes, encoded, whole⟩ := codes payload safe
  refine ⟨bytes, encoded, ?_, ?_⟩
  · obtain ⟨reader, read⟩ := whole.read_all
    show (readFrame ⟨bytes, 0⟩).map Prod.fst = _
    rw [read]
    rfl
  · intro part inside proper
    obtain ⟨error, failed⟩ := whole.read_part inside proper
    refine ⟨error, ?_⟩
    show (readFrame ⟨part, 0⟩).map Prod.fst = _
    rw [failed]
    rfl

/-- A sync frame, by what its step makes of the payload. -/
private theorem inverts_sync {step : Nat} {frame : Bytes → InboundFrame}
    (safeStep : step ≤ JsDouble.MAX_SAFE_INTEGER)
    (reads : readSyncStep step = readVarUint8Array >>= fun payload => pure (frame payload)) :
    Inverts (encodeSync step) frame := by
  apply inverts_of_codes
  intro payload safe
  obtain ⟨tagWritten, tagCodes⟩ := codes_varUint (n := 0) (Nat.zero_le _)
  obtain ⟨stepWritten, stepCodes⟩ := codes_varUint safeStep
  obtain ⟨written, codes⟩ := codes_varUint8Array safe
  have body : Codes (readSyncStep step) (varUintBytes payload.length ++ payload) (frame payload) := by
    rw [reads]
    exact codes.map frame
  refine ⟨_, ?_, tagCodes.bind (stepCodes.bind body)⟩
  show (writeVarUint (.finite ((0 : Nat) : ℚ)) >>= fun tag => _) = _
  rw [tagWritten]
  show (writeVarUint (.finite step) >>= fun written => _) = _
  rw [stepWritten]
  show (writeVarUint8Array payload >>= fun written => _) = _
  rw [written]
  show Except.ok [_, _, _].flatten = _
  rw [List.flatten_cons, List.flatten_cons, List.flatten_cons, List.flatten_nil, List.append_nil]

private theorem inverts_awareness : Inverts encodeAwareness .awareness := by
  apply inverts_of_codes
  intro payload safe
  obtain ⟨tagWritten, tagCodes⟩ := codes_varUint (n := 1) (by decide)
  obtain ⟨written, codes⟩ := codes_varUint8Array safe
  have body : Codes (readMessage MESSAGE_AWARENESS) (varUintBytes payload.length ++ payload)
      (.awareness payload) := codes.map InboundFrame.awareness
  refine ⟨_, ?_, tagCodes.bind body⟩
  show (writeVarUint (.finite ((1 : Nat) : ℚ)) >>= fun tag => _) = _
  rw [tagWritten]
  show (writeVarUint8Array payload >>= fun written => _) = _
  rw [written]
  show Except.ok [_, _].flatten = _
  rw [List.flatten_cons, List.flatten_cons, List.flatten_nil, List.append_nil]

/-- Safe integers and byte strings are read back to their end and no further, whatever follows; the
frames of the encoders decode to what they carry, and no proper prefix of one decodes; and whatever
the bytes, an integer that is read is safe. -/
theorem wire_exact :
    (∀ n : Nat, n ≤ JsDouble.MAX_SAFE_INTEGER →
      ∃ bytes, writeVarUint (.finite n) = .ok bytes ∧ Codes readVarUint bytes n) ∧
    (∀ payload : Bytes, payload.length ≤ JsDouble.MAX_SAFE_INTEGER →
      ∃ bytes, writeVarUint8Array payload = .ok bytes ∧ Codes readVarUint8Array bytes payload) ∧
    (Inverts encodeSyncStep1 .syncStep1 ∧ Inverts encodeSyncStep2 .syncStep2 ∧
      Inverts encodeSyncUpdate .syncUpdate ∧ Inverts encodeAwareness .awareness) ∧
    ∀ (reader next : FrameReader) (n : Nat), readVarUint reader = .ok (n, next) →
      n ≤ JsDouble.MAX_SAFE_INTEGER := by
  refine ⟨?_, ?_, ⟨?_, ?_, ?_, inverts_awareness⟩, ?_⟩
  · intro n safe
    exact ⟨_, codes_varUint safe⟩
  · intro payload safe
    exact ⟨_, codes_varUint8Array safe⟩
  · exact inverts_sync (by decide) rfl
  · exact inverts_sync (by decide) rfl
  · exact inverts_sync (by decide) rfl
  · intro reader next n read
    exact (readVarUintFrom_safe (pow_zero BASE).symm (by decide) read).1

end Assaybank.Collab
