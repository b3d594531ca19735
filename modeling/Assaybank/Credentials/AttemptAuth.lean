import Assaybank.Api.Authorisation
import Assaybank.Auth.Claims
import Assaybank.Auth.WsTicket
import Assaybank.Credentials.AttemptToken
import Assaybank.Db.AuditLog
import Assaybank.Library.Document
import Assaybank.Library.JsonBytes
import Assaybank.Runtime.Search

/-!
Owns the way from an `Authorization` header to a candidate
(`apps/api/src/credentials/attempt-token.ts`, `packages/auth/src/attempt-token.ts`).

Contract: a token that was minted authenticates its attempt alone, before its instant alone, however
the header is cased or spaced; under another key, and as a ticket, it is refused
(`authenticateAttempt_minted`). Nothing else authenticates: a header that does carries the sealed form
of claims its key signed (`authenticateAttempt_sealed`).

It does not own whether the attempt may still be written to: that is read from its row.
-/

namespace Assaybank.Credentials.AttemptAuth

open Assaybank.Runtime Assaybank.Library Assaybank.Contracts Assaybank.Domain Assaybank.Auth
open Assaybank.Db Assaybank.Api.Authorisation

/-! ### Claims -/

structure AttemptClaims where
  v : Int
  p : Unit
  aid : JsString
  oid : JsString
  exp : Int

def AttemptClaimsSchema : Schema AttemptClaims :=
  .looseObject
    (.both (.field (js "v") (.integer [⟨fun v => decide (v = 1), .invalidValue⟩]))
      (.both (.field (js "p") (.enumeration [()] (fun _ => js "attempt") (by decide)))
        (.both (.field (js "aid") UuidSchema)
          (.both (.field (js "oid") UuidSchema)
            (.field (js "exp")
              (safeInteger [⟨fun exp => decide (0 < exp), .tooSmall⟩,
                maxInt MAX_SAFE_INTEGER]))))))
    { toFun := fun (v, p, aid, oid, exp) => ⟨v, p, aid, oid, exp⟩
      invFun := fun c => (c.v, c.p, c.aid, c.oid, c.exp)
      left_inv := fun _ => rfl
      right_inv := fun _ => rfl }

/-- What a token asserts. The instant is that of a date, which may be an invalid one. -/
structure AttemptTokenClaims where
  attemptId : JsString
  orgId : JsString
  expiresAt : Option EpochMillis
deriving DecidableEq

/-- Authenticates a token: signature, then claims, then expiry, then scope. An invalid date compares
as not reached. -/
def verifyAttemptToken (mac : Mac) (token secret : JsString) (now : EpochMillis)
    (expectedAttemptId : Option JsString) : Except AuthErrorReason AttemptTokenClaims :=
  match openEnvelope mac readClaims token ATTEMPT_TOKEN_PREFIX secret with
  | .error reason => .error reason
  | .ok value =>
      match AttemptClaimsSchema.safeParse value with
      | none => .error .claimsInvalid
      | some parsed =>
          let claims : AttemptTokenClaims := ⟨parsed.aid, parsed.oid, timeValue parsed.exp⟩
          if claims.expiresAt.any fun expiresAt => expiresAt ≤ now then .error .expired
          else if expectedAttemptId.any fun expected => decide (claims.attemptId ≠ expected) then
            .error .attemptMismatch
          else .ok claims

/-! ### The header -/

/-- A header, which Fastify hands out as a list when it is repeated. -/
inductive HeaderValue where
  | one (text : JsString)
  | many (texts : List JsString)

def BEARER_SCHEME : JsString := js "Bearer"

/-- The credential of a `Bearer` header. -/
def bearerCredential : Option HeaderValue → Option JsString
  | some (.one header) =>
      match indexOf header (js " ") 0 with
      | none => none
      | some separator =>
          if (slice header 0 separator).map lowerAscii ≠ BEARER_SCHEME.map lowerAscii then none
          else
            let credential := trim (header.drop (separator + 1))
            if credential.length = 0 then none else some credential
  | _ => none

/-- The surfaces that refuse a credential. -/
inductive RefusalSurface where
  | redeem
  | attemptToken
  | wsTicket
deriving DecidableEq

/-- Why this surface refuses one: none was presented, or the verifier's reason. -/
inductive RefusalReason where
  | absent
  | auth (reason : AuthErrorReason)
deriving DecidableEq

structure Refusal where
  surface : RefusalSurface
  reason : RefusalReason
deriving DecidableEq

structure AttemptAuthOptions where
  signingKey : JsString
  now : EpochMillis
  expectedAttemptId : Option JsString
  surface : RefusalSurface

def authenticateAttempt (mac : Mac) (header : Option HeaderValue) (options : AttemptAuthOptions) :
    Except Refusal CandidatePrincipal :=
  match bearerCredential header with
  | none => .error ⟨options.surface, .absent⟩
  | some credential =>
      match verifyAttemptToken mac credential options.signingKey options.now
        options.expectedAttemptId with
      | .error reason => .error ⟨options.surface, .auth reason⟩
      | .ok claims => .ok ⟨claims.attemptId, claims.orgId⟩

/-! ### Sealed forms -/

private theorem encoded_units {text : JsString} (ascii : ∀ c ∈ text, c < 128) :
    ∀ c ∈ encodeBase64Url text, isSpace c = false ∧ c ≠ unit '.' := by
  have sextets : ∀ sextet < 64, isSpace (urlUnit (sextetUnit sextet)) = false ∧
      urlUnit (sextetUnit sextet) ≠ unit '.' := by decide +kernel
  intro c inside
  obtain ⟨sextet, member, rfl⟩ := List.mem_map.mp inside
  refine sextets sextet (toSextets_lt (fun byte among => ?_) sextet member)
  rw [utf8Bytes_ascii ascii] at among
  obtain ⟨d, unit, rfl⟩ := List.mem_map.mp among
  have small : d.toNat < 128 := by simpa [UInt16.lt_iff_toNat_lt] using ascii d unit
  omega

private theorem length_toSextets_le (bytes : List Nat) :
    (toSextets bytes).length ≤ 2 * bytes.length := by
  fun_induction toSextets bytes with
  | case1 a b c rest inductionHypothesis =>
      simp only [List.length_cons]
      omega
  | case2 a b => simp
  | case3 a => simp
  | case4 => simp

private theorem hexDigit_units {digits : JsString} (hex : digits.all isHexDigit = true) :
    ∀ c ∈ digits, isSpace c = false ∧ c ≠ unit '.' := by
  intro c inside
  have digit := List.all_eq_true.mp hex c inside
  refine ⟨?_, fun dot => by rw [dot] at digit; exact absurd digit (by decide)⟩
  have units : c ∈ js "0123456789abcdefABCDEF" := by
    simp only [isHexDigit, isDigit, Bool.or_eq_true, Bool.and_eq_true, decide_eq_true_eq,
      UInt16.le_iff_toNat_le] at digit
    have same : c = UInt16.ofNat c.toNat := UInt16.ofNat_toNat.symm
    rw [same]
    have bounds : 48 ≤ c.toNat ∧ c.toNat ≤ 57 ∨ 97 ≤ c.toNat ∧ c.toNat ≤ 102 ∨
        65 ≤ c.toNat ∧ c.toNat ≤ 70 := by
      rcases digit with (number | lower) | upper
      · exact .inl number
      · exact .inr (.inl lower)
      · exact .inr (.inr upper)
    generalize c.toNat = n at bounds
    rcases bounds with ⟨low, high⟩ | ⟨low, high⟩ | ⟨low, high⟩ <;> interval_cases n <;> decide
  have blank : ((js "0123456789abcdefABCDEF").all fun d => !isSpace d) = true := by decide
  simpa using List.all_eq_true.mp blank c units

/-- A payload in base64url under a prefix without a dot is found again in its sealed form, whatever
key and purpose it is opened for. -/
private theorem openEnvelope_sealed {mac : Mac} {prefixTag payload key : JsString}
    (tag : ∀ c ∈ prefixTag, c ≠ unit '.') (dotless : ∀ c ∈ payload, c ≠ unit '.')
    (filled : payload ≠ [])
    (short : (sealPayload mac prefixTag payload key).length ≤ MAX_CREDENTIAL_LENGTH)
    (read : JsString → Option Value) (purpose secret : JsString) :
    openEnvelope mac read (sealPayload mac prefixTag payload key) purpose secret =
      if prefixTag ≠ purpose then .error .wrongPurpose
      else if mac.hmacHex secret (signedMessage purpose payload) ≠
          mac.hmacHex key (signedMessage purpose payload) then .error .signatureInvalid
      else
        match read payload with
        | none => .error .claimsInvalid
        | some claims => .ok claims := by
  have parts : splitOn (unit '.') (sealPayload mac prefixTag payload key) =
      [prefixTag, payload, mac.hmacHex key (signedMessage prefixTag payload)] := by
    refine List.splitOn_intercalate (unit '.') (fun part inside dot => ?_) (by simp)
    simp only [List.mem_cons, List.not_mem_nil, or_false] at inside
    rcases inside with rfl | rfl | rfl
    · exact tag _ dot rfl
    · exact dotless _ dot rfl
    · exact (hexDigit_units (mac.hexadecimal _ _) _ dot).2 rfl
  have nonempty : (sealPayload mac prefixTag payload key).length ≠ 0 := by
    intro empty
    rw [List.length_eq_zero_iff.mp empty] at parts
    cases parts
  unfold openEnvelope
  rw [if_neg (by omega), parts]
  simp only [List.length_eq_zero_iff]
  rw [if_neg filled]
  by_cases same : prefixTag = purpose
  · subst same
    rw [if_neg (not_not.mpr rfl), if_neg (not_not.mpr rfl)]
    by_cases signed : mac.hmacHex secret (signedMessage prefixTag payload) =
        mac.hmacHex key (signedMessage prefixTag payload)
    · have equal : constantTimeEquals (mac.hmacHex secret (signedMessage prefixTag payload))
          (mac.hmacHex key (signedMessage prefixTag payload)) = true := by
        rw [signed, constantTimeEquals, beq_self_eq_true]
      rw [if_neg (not_not.mpr signed), equal]
      rfl
    · rw [if_pos signed, if_pos]
      rw [Bool.not_eq_true']
      exact Bool.eq_false_iff.mpr fun equal =>
        signed (constantTimeEquals_hex (mac.hexadecimal _ _) equal)
  · rw [if_pos same, if_pos same]

/-! ### The token -/

/-- The claims of a token, as they are signed. -/
def attemptClaims (attemptId orgId : BrandedId) (expiresAt : EpochMillis) : AttemptClaims :=
  ⟨1, (), attemptId.text, orgId.text, expiresAt⟩

private theorem attemptClaims_accepted (attemptId orgId : BrandedId) {expiresAt : EpochMillis}
    (positive : 0 < expiresAt) (dated : expiresAt ≤ MAX_TIME_VALUE) :
    AttemptClaimsSchema.Accepts (attemptClaims attemptId orgId expiresAt) := by
  have uuid (id : BrandedId) : UuidSchema.Accepts id.text := by
    rw [UuidSchema, Schema.string, Schema.accepts_scalar]
    exact List.forall_mem_singleton.mpr id.valid
  have version : (Schema.integer [⟨fun v => decide (v = 1), .invalidValue⟩]).Accepts 1 := by
    rw [Schema.integer, Schema.accepts_scalar]
    exact List.forall_mem_singleton.mpr rfl
  have instant (exp : Int) (lower : 0 < exp) (upper : exp ≤ 8640000000000000) :
      (safeInteger [⟨fun exp => decide (0 < exp), .tooSmall⟩, maxInt MAX_SAFE_INTEGER]).Accepts
        exp := by
    have room : (8640000000000000 : Int) ≤ MAX_SAFE_INTEGER := by decide
    rw [safeInteger, Schema.integer, Schema.accepts_scalar]
    simp only [minInt, maxInt, List.mem_cons, List.not_mem_nil, or_false, forall_eq_or_imp,
      forall_eq, decide_eq_true_eq]
    omega
  unfold AttemptClaimsSchema
  rw [accepts_looseObject, Fields.accepts_both, Fields.accepts_both, Fields.accepts_both,
    Fields.accepts_both, Fields.accepts_field, Fields.accepts_field, Fields.accepts_field,
    Fields.accepts_field, Fields.accepts_field]
  exact ⟨version, rfl, uuid attemptId, uuid orgId, instant expiresAt positive dated⟩

private theorem length_of_isUuid {s : JsString} (uuid : isUuid s = true) : s.length = 36 := by
  unfold isUuid at uuid
  rw [Bool.or_eq_true, Bool.or_eq_true] at uuid
  rcases uuid with (nil | max) | grouped
  · rw [beq_iff_eq.mp nil]
    decide
  · rw [beq_iff_eq.mp max]
    decide
  · split at grouped
    · rename_i first second third fourth fifth groups
      simp only [Bool.and_eq_true, beq_iff_eq, List.cons.injEq] at grouped
      obtain ⟨one, two, three, four, five, _⟩ := grouped.1.1.2
      have whole : s = joinWith [unit '-'] [first, second, third, fourth, fifth] := by
        rw [← groups, joinWith, splitOn, List.intercalate_splitOn]
      rw [whole]
      simp only [joinWith, List.intercalate_cons_cons, List.intercalate_singleton,
        List.length_append, List.length_singleton]
      omega
    · cases grouped

/-- An instant is written in at most sixteen digits. -/
private theorem length_numberText_le {n : Int} (positive : 0 < n) (small : n < 10 ^ 16) :
    (numberText (.ofInt n)).length ≤ 16 := by
  obtain ⟨whole, value⟩ : 0 ≤ (Decimal.ofInt n).exponent ∧
      (Decimal.ofInt n).mantissa * 10 ^ (Decimal.ofInt n).exponent.toNat = n := by
    have read := Decimal.toInt?_ofInt n
    unfold Decimal.toInt? at read
    split at read
    · rename_i whole
      exact ⟨whole, Option.some.inj read⟩
    · cases read
  generalize Decimal.ofInt n = d at whole value
  have power : (0 : Int) < 10 ^ d.exponent.toNat := by positivity
  have leading : 0 < d.mantissa := by
    by_contra other
    have below : d.mantissa * 10 ^ d.exponent.toNat ≤ 0 :=
      mul_nonpos_of_nonpos_of_nonneg (not_lt.mp other) power.le
    omega
  obtain ⟨digits, same⟩ : ∃ digits, (natText d.mantissa.natAbs).length = digits + 1 :=
    Nat.exists_eq_succ_of_ne_zero (length_natText_pos _).ne'
  have least : 10 ^ digits ≤ d.mantissa.natAbs := by
    by_contra fewer
    have short : (natText d.mantissa.natAbs).length ≤ digits :=
      (length_natText_le_iff (by omega)).mpr (not_le.mp fewer)
    omega
  have scaled : (10 : Int) ^ (digits + d.exponent.toNat) ≤ n := by
    rw [← value, pow_add]
    refine mul_le_mul_of_nonneg_right ?_ power.le
    have cast : ((10 ^ digits : Nat) : Int) ≤ d.mantissa.natAbs := Int.ofNat_le.mpr least
    rw [Int.natAbs_of_nonneg leading.le] at cast
    exact_mod_cast cast
  have few : digits + d.exponent.toNat < 16 :=
    (pow_lt_pow_iff_right₀ (by norm_num : (1 : Int) < 10)).mp (scaled.trans_lt small)
  unfold numberText
  rw [if_neg leading.ne', if_neg (not_lt.mpr leading.le), List.nil_append]
  unfold digitsText
  rw [same, if_pos (by constructor <;> omega), List.length_append, List.length_replicate, same]
  omega

/-- The claims as they stand on the wire. -/
private theorem encode_attemptClaims (attemptId orgId : BrandedId) (expiresAt : EpochMillis) :
    AttemptClaimsSchema.encode (attemptClaims attemptId orgId expiresAt) =
      .object [(js "v", .number 1), (js "p", .string (js "attempt")),
        (js "aid", .string attemptId.text), (js "oid", .string orgId.text),
        (js "exp", .number (.ofInt expiresAt))] := by
  have one : Decimal.ofInt 1 = 1 := by decide +kernel
  rw [← one]
  rfl

/-- The payload of a token. -/
def attemptPayload (attemptId orgId : BrandedId) (expiresAt : EpochMillis) : JsString :=
  encodeBase64Url (jsonText
    (AttemptClaimsSchema.encode (attemptClaims attemptId orgId expiresAt)))

private theorem issueAttemptToken_eq (mac : Mac) (attemptId orgId : BrandedId)
    (expiresAt : EpochMillis) (key : JsString) :
    issueAttemptToken mac attemptId.text orgId.text expiresAt key =
      sealPayload mac ATTEMPT_TOKEN_PREFIX (attemptPayload attemptId orgId expiresAt) key := by
  rw [attemptPayload, encode_attemptClaims]
  rfl

private theorem ascii_attemptClaims (attemptId orgId : BrandedId) (expiresAt : EpochMillis) :
    everyString isAsciiText
      (AttemptClaimsSchema.encode (attemptClaims attemptId orgId expiresAt)) = true := by
  rw [encode_attemptClaims]
  simp only [everyString, everyMember, isAsciiText_of_isUuid attemptId.valid,
    isAsciiText_of_isUuid orgId.valid]
  decide

private theorem readClaims_attemptPayload (attemptId orgId : BrandedId) (expiresAt : EpochMillis) :
    readClaims (attemptPayload attemptId orgId expiresAt) =
      some (AttemptClaimsSchema.encode (attemptClaims attemptId orgId expiresAt)) := by
  refine readClaims_encoded ?_ (ascii_attemptClaims attemptId orgId expiresAt) ?_
  · rw [encode_attemptClaims]
    rfl
  · rw [encode_attemptClaims]
    simp only [everyString, everyMember,
      isCharacterText_of_ascii (isAsciiText_of_isUuid attemptId.valid),
      isCharacterText_of_ascii (isAsciiText_of_isUuid orgId.valid)]
    decide

private theorem length_attemptPayload_le (attemptId orgId : BrandedId) {expiresAt : EpochMillis}
    (positive : 0 < expiresAt) (dated : expiresAt ≤ MAX_TIME_VALUE) :
    (attemptPayload attemptId orgId expiresAt).length ≤ 1400 := by
  have number : (utf8Bytes (numberText (.ofInt expiresAt))).length ≤ 16 := by
    have units := ascii_jsonText (.number (.ofInt expiresAt)) rfl
    rw [jsonText] at units
    rw [utf8Bytes_ascii units, List.length_map]
    have small : (expiresAt : Int) < 10 ^ 16 :=
      lt_of_le_of_lt dated (by decide : MAX_TIME_VALUE < 10 ^ 16)
    exact length_numberText_le positive small
  have bytes := length_utf8Bytes_jsonText_le
    (AttemptClaimsSchema.encode (attemptClaims attemptId orgId expiresAt))
  have one : (utf8Bytes (numberText 1)).length = 1 := by decide +kernel
  have bound : byteBound (AttemptClaimsSchema.encode (attemptClaims attemptId orgId expiresAt)) ≤
      700 := by
    rw [encode_attemptClaims]
    simp only [byteBound, membersBound, length_of_isUuid attemptId.valid,
      length_of_isUuid orgId.valid, one]
    have names : (js "v").length = 1 ∧ (js "p").length = 1 ∧ (js "attempt").length = 7 ∧
        (js "aid").length = 3 ∧ (js "oid").length = 3 ∧ (js "exp").length = 3 := by decide
    omega
  have sextets := length_toSextets_le (utf8Bytes (jsonText
    (AttemptClaimsSchema.encode (attemptClaims attemptId orgId expiresAt))))
  rw [attemptPayload, encodeBase64Url, List.length_map]
  omega

private theorem attemptPayload_units (attemptId orgId : BrandedId) (expiresAt : EpochMillis) :
    ∀ c ∈ attemptPayload attemptId orgId expiresAt, isSpace c = false ∧ c ≠ unit '.' :=
  encoded_units (ascii_jsonText _ (ascii_attemptClaims attemptId orgId expiresAt))

private theorem attemptPayload_ne_nil (attemptId orgId : BrandedId) (expiresAt : EpochMillis) :
    attemptPayload attemptId orgId expiresAt ≠ [] := by
  intro empty
  have read := readClaims_attemptPayload attemptId orgId expiresAt
  rw [empty] at read
  cases read

private theorem tag_units : ∀ c ∈ ATTEMPT_TOKEN_PREFIX, isSpace c = false ∧ c ≠ unit '.' := by
  intro c inside
  have each : (ATTEMPT_TOKEN_PREFIX.all fun d => !isSpace d && d != unit '.') = true := by decide
  simpa using List.all_eq_true.mp each c inside

section Minted

variable {mac : Mac} {attemptId orgId : BrandedId} {expiresAt : EpochMillis} {key : JsString}

/-- What opens of a minted token, under any key and for any purpose. -/
private theorem openEnvelope_minted (sha256 : ∀ key message, (mac.hmacHex key message).length = 64)
    (positive : 0 < expiresAt) (dated : expiresAt ≤ MAX_TIME_VALUE)
    (read : JsString → Option Value) (purpose secret : JsString) :
    openEnvelope mac read (issueAttemptToken mac attemptId.text orgId.text expiresAt key) purpose
        secret =
      if ATTEMPT_TOKEN_PREFIX ≠ purpose then .error .wrongPurpose
      else if mac.hmacHex secret (signedMessage purpose (attemptPayload attemptId orgId expiresAt)) ≠
          mac.hmacHex key (signedMessage purpose (attemptPayload attemptId orgId expiresAt)) then
        .error .signatureInvalid
      else
        match read (attemptPayload attemptId orgId expiresAt) with
        | none => .error .claimsInvalid
        | some claims => .ok claims := by
  rw [issueAttemptToken_eq]
  refine openEnvelope_sealed (fun c inside => (tag_units c inside).2)
    (fun c inside => (attemptPayload_units attemptId orgId expiresAt c inside).2)
    (attemptPayload_ne_nil attemptId orgId expiresAt) ?_ read purpose secret
  have payload := length_attemptPayload_le attemptId orgId positive dated
  have tag : ATTEMPT_TOKEN_PREFIX.length = 5 := by decide
  have dot : (js ".").length = 1 := by decide
  simp only [sealPayload, joinWith, List.intercalate_cons_cons, List.intercalate_singleton,
    List.length_append, sha256, tag, dot, MAX_CREDENTIAL_LENGTH]
  omega

/-- A minted token, under any key: refused where the key signs otherwise, and else good for its
attempt until its instant. -/
theorem verifyAttemptToken_minted (sha256 : ∀ key message, (mac.hmacHex key message).length = 64)
    (positive : 0 < expiresAt) (dated : expiresAt ≤ MAX_TIME_VALUE) (secret : JsString)
    (now : EpochMillis) (expected : Option JsString) :
    verifyAttemptToken mac (issueAttemptToken mac attemptId.text orgId.text expiresAt key) secret
        now expected =
      if mac.hmacHex secret
            (signedMessage ATTEMPT_TOKEN_PREFIX (attemptPayload attemptId orgId expiresAt)) ≠
          mac.hmacHex key
            (signedMessage ATTEMPT_TOKEN_PREFIX (attemptPayload attemptId orgId expiresAt)) then
        .error .signatureInvalid
      else if expiresAt ≤ now then .error .expired
      else if expected.any fun other => decide (attemptId.text ≠ other) then .error .attemptMismatch
      else .ok ⟨attemptId.text, orgId.text, some expiresAt⟩ := by
  unfold verifyAttemptToken
  rw [openEnvelope_minted sha256 positive dated, if_neg (not_not.mpr rfl)]
  by_cases signed : mac.hmacHex secret
        (signedMessage ATTEMPT_TOKEN_PREFIX (attemptPayload attemptId orgId expiresAt)) =
      mac.hmacHex key
        (signedMessage ATTEMPT_TOKEN_PREFIX (attemptPayload attemptId orgId expiresAt))
  · rw [if_neg (not_not.mpr signed), if_neg (not_not.mpr signed), readClaims_attemptPayload]
    simp only
    rw [Schema.safeParse_eq_some.mpr (attemptClaims_accepted attemptId orgId positive dated)]
    have date : timeValue expiresAt = some expiresAt := by
      unfold timeValue
      rw [if_pos]
      rw [abs_of_nonneg positive.le]
      exact dated
    simp only [attemptClaims, date, Option.any_some, decide_eq_true_eq]
    rfl
  · rw [if_pos signed, if_pos signed]

end Minted

/-! ### Headers -/

/-- A credential without blanks is read from a header, however its scheme is cased and whatever
blanks are around it. -/
theorem bearerCredential_written {scheme left credential right : JsString}
    (bearer : scheme.map lowerAscii = js "bearer")
    (blank : ∀ c ∈ left ++ right, isSpace c = true)
    (visible : ∀ c ∈ credential, isSpace c = false) (filled : credential ≠ []) :
    bearerCredential (some (.one (scheme ++ js " " ++ left ++ credential ++ right))) =
      some credential := by
  have whole : scheme ++ js " " ++ left ++ credential ++ right =
      scheme ++ unit ' ' :: (left ++ credential ++ right) := by
    simp [js, unit]
  have absent : unit ' ' ∉ scheme := by
    intro inside
    have lowered := List.mem_map_of_mem (f := lowerAscii) inside
    rw [bearer] at lowered
    exact absurd lowered (by decide)
  rw [whole, bearerCredential]
  have space : js " " = [unit ' '] := rfl
  rw [space, indexOf_first absent]
  simp only
  have cut : slice (scheme ++ unit ' ' :: (left ++ credential ++ right)) 0 scheme.length =
      scheme := by
    rw [slice, List.take_left, List.drop_zero]
  have named : BEARER_SCHEME.map lowerAscii = js "bearer" := by decide
  have rest : (scheme ++ unit ' ' :: (left ++ credential ++ right)).drop (scheme.length + 1) =
      left ++ credential ++ right := by
    rw [← List.drop_drop, List.drop_left, List.drop_one, List.tail_cons]
  rw [cut, bearer, named, if_neg (not_not.mpr rfl), rest, trim_between blank visible filled,
    if_neg fun empty => filled (List.length_eq_zero_iff.mp empty)]

/-! ### Authentication -/

private theorem issued_visible (mac : Mac) (attemptId orgId : BrandedId) (expiresAt : EpochMillis)
    (key : JsString) :
    ∀ c ∈ issueAttemptToken mac attemptId.text orgId.text expiresAt key, isSpace c = false := by
  intro c inside
  rw [issueAttemptToken_eq, sealPayload] at inside
  have dot : js "." = [unit '.'] := rfl
  rw [dot] at inside
  rcases mem_of_mem_joinWith inside with rfl | ⟨part, member, here⟩
  · decide
  · simp only [List.mem_cons, List.not_mem_nil, or_false] at member
    rcases member with rfl | rfl | rfl
    · exact (tag_units c here).1
    · exact (attemptPayload_units attemptId orgId expiresAt c here).1
    · exact (hexDigit_units (mac.hexadecimal _ _) c here).1

/-- A token that was minted, in a header of whatever case and spacing: refused under a key that signs
otherwise, and else good for its attempt and organisation, from its mint to its instant and no
longer. No websocket is opened with it. -/
theorem authenticateAttempt_minted {mac : Mac}
    (sha256 : ∀ key message, (mac.hmacHex key message).length = 64) (attemptId orgId : BrandedId)
    {expiresAt : EpochMillis} (positive : 0 < expiresAt) (dated : expiresAt ≤ MAX_TIME_VALUE)
    (key : JsString) {scheme left right : JsString} (bearer : scheme.map lowerAscii = js "bearer")
    (blank : ∀ c ∈ left ++ right, isSpace c = true) (options : AttemptAuthOptions) :
    authenticateAttempt mac (some (.one (scheme ++ js " " ++ left ++
          issueAttemptToken mac attemptId.text orgId.text expiresAt key ++ right))) options =
        (if mac.hmacHex options.signingKey
              (signedMessage ATTEMPT_TOKEN_PREFIX (attemptPayload attemptId orgId expiresAt)) ≠
            mac.hmacHex key
              (signedMessage ATTEMPT_TOKEN_PREFIX (attemptPayload attemptId orgId expiresAt)) then
          .error ⟨options.surface, .auth .signatureInvalid⟩
        else if expiresAt ≤ options.now then .error ⟨options.surface, .auth .expired⟩
        else if options.expectedAttemptId.any fun other => decide (attemptId.text ≠ other) then
          .error ⟨options.surface, .auth .attemptMismatch⟩
        else .ok ⟨attemptId.text, orgId.text⟩) ∧
      ∀ (readTicket : JsString → Option Value) (secret : JsString) (now : EpochMillis),
        verifyWsTicket mac readTicket
          (issueAttemptToken mac attemptId.text orgId.text expiresAt key) secret now =
            .error .wrongPurpose := by
  have filled : issueAttemptToken mac attemptId.text orgId.text expiresAt key ≠ [] := by
    intro empty
    have tagged := congrArg List.head? empty
    rw [issueAttemptToken_eq] at tagged
    cases tagged
  constructor
  · unfold authenticateAttempt
    rw [bearerCredential_written bearer blank
      (issued_visible mac attemptId orgId expiresAt key) filled]
    simp only
    rw [verifyAttemptToken_minted sha256 positive dated]
    split_ifs <;> rfl
  · intro readTicket secret now
    have other : ATTEMPT_TOKEN_PREFIX ≠ WS_TICKET_PREFIX := by decide
    unfold verifyWsTicket
    rw [openEnvelope_minted sha256 positive dated, if_pos other]

private theorem sitting_isUuid : isUuid (js "5f0c2d84-9e1b-4b6a-8c37-2a41d09be6f3") = true := by
  decide +kernel

private theorem employer_isUuid : isUuid (js "c27a6b10-3d58-4e92-b0f4-7e85a1d3c946") = true := by
  decide +kernel

private theorem keyed_hexadecimal (key message : JsString) :
    ((fun key _ => List.replicate 64 (digitUnit (key.length % 10)) :
      JsString → JsString → JsString) key message).all isHexDigit = true := by
  rw [List.all_eq_true]
  intro c inside
  have digit := isDigit_digitUnit (Nat.mod_lt key.length (by decide : 0 < 10))
  rw [List.eq_of_mem_replicate inside, isHexDigit, digit]
  rfl

/-- A digest of the length of a key, for runs on fixed inputs. -/
def keyedMac : Mac :=
  ⟨fun key _ => List.replicate 64 (digitUnit (key.length % 10)), keyed_hexadecimal⟩

theorem keyedMac_length (key message : JsString) : (keyedMac.hmacHex key message).length = 64 :=
  List.length_replicate

/-- A token for an attempt, a millisecond before it expires. -/
theorem authenticateAttempt_minted_example :
    authenticateAttempt keyedMac (some (.one (js "bEARER" ++ js " " ++ js "  " ++
        issueAttemptToken keyedMac (js "5f0c2d84-9e1b-4b6a-8c37-2a41d09be6f3")
          (js "c27a6b10-3d58-4e92-b0f4-7e85a1d3c946") 1700000000000 (js "key") ++ js "\t")))
      ⟨js "key", 1699999999999, some (js "5f0c2d84-9e1b-4b6a-8c37-2a41d09be6f3"), .attemptToken⟩ =
    .ok ⟨js "5f0c2d84-9e1b-4b6a-8c37-2a41d09be6f3", js "c27a6b10-3d58-4e92-b0f4-7e85a1d3c946"⟩ := by
  have minted := (authenticateAttempt_minted keyedMac_length
    ⟨js "5f0c2d84-9e1b-4b6a-8c37-2a41d09be6f3", sitting_isUuid⟩
    ⟨js "c27a6b10-3d58-4e92-b0f4-7e85a1d3c946", employer_isUuid⟩
    (by decide : (0 : EpochMillis) < 1700000000000) (by decide) (js "key")
    (by decide : (js "bEARER").map lowerAscii = js "bearer")
    (List.all_eq_true.mp (by decide : (js "  " ++ js "\t").all isSpace = true))
    ⟨js "key", 1699999999999, some (js "5f0c2d84-9e1b-4b6a-8c37-2a41d09be6f3"), .attemptToken⟩).1
  rw [if_neg (not_not.mpr rfl), if_neg (by decide), if_neg (by decide)] at minted
  exact minted

/-- A header that authenticates carries a sealed form under the key of the service, and says nothing
but what its claims say. -/
theorem authenticateAttempt_sealed {mac : Mac} {header : Option HeaderValue}
    {options : AttemptAuthOptions} {candidate : CandidatePrincipal}
    (authenticated : authenticateAttempt mac header options = .ok candidate) :
    ∃ payload value claims,
      bearerCredential header =
        some (sealPayload mac ATTEMPT_TOKEN_PREFIX payload options.signingKey) ∧
      readClaims payload = some value ∧ AttemptClaimsSchema.safeParse value = some claims ∧
      candidate = ⟨claims.aid, claims.oid⟩ ∧
      (∀ expiresAt, timeValue claims.exp = some expiresAt → options.now < expiresAt) ∧
      ∀ expected, options.expectedAttemptId = some expected → candidate.attemptId = expected := by
  unfold authenticateAttempt at authenticated
  split at authenticated
  · cases authenticated
  · rename_i credential presented
    split at authenticated
    · cases authenticated
    · rename_i verified
      unfold verifyAttemptToken at verified
      split at verified
      · cases verified
      · rename_i value opened
        obtain ⟨payload, text, read⟩ := openEnvelope_text opened
        split at verified
        · cases verified
        · rename_i claims parsed
          simp only at verified
          split_ifs at verified with expired mismatch
          cases verified
          cases authenticated
          refine ⟨payload, value, claims, by rw [presented, text], read, parsed, rfl, ?_, ?_⟩
          · intro expiresAt date
            rw [date, Option.any_some, decide_eq_true_eq, not_le] at expired
            exact expired
          · intro expected named
            rw [named, Option.any_some, decide_eq_true_eq, not_not] at mismatch
            exact mismatch

end Assaybank.Credentials.AttemptAuth
