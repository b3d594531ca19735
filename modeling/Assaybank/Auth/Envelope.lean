import Assaybank.Library.Json
import Assaybank.Library.TextRules
import Assaybank.Runtime.Base64
import Assaybank.Runtime.Utf8

/-!
Owns the signed envelope both stateless credentials are carried in
(`packages/auth/src/envelope.ts` and `crypto.ts`).

Contract: a text that opens is the one text of its prefix, its payload and their signature
(`openEnvelope_text`), so no credential has a second form.

HMAC-SHA-256 is a parameter. So is, here, the reading of a payload's claims behind a signature that
has verified.
-/

namespace Assaybank.Auth

open Assaybank.Runtime Assaybank.Library

/-! ### Primitives -/

/-- `hmacHex`: a digest under a key, written in hexadecimal. -/
structure Mac where
  hmacHex : JsString → JsString → JsString
  hexadecimal : ∀ key message, (hmacHex key message).all isHexDigit = true

/-- Compares two strings by their bytes. -/
def constantTimeEquals (a b : JsString) : Bool := utf8Bytes a == utf8Bytes b

/-- Text as unpadded base64url. -/
def encodeBase64Url (value : JsString) : JsString :=
  (toSextets (utf8Bytes value)).map fun sextet => urlUnit (sextetUnit sextet)

/-! ### The envelope -/

/-- Why a credential is refused. -/
inductive AuthErrorReason where
  | malformed
  | wrongPurpose
  | signatureInvalid
  | claimsInvalid
  | notYetValid
  | expired
  | attemptMismatch
deriving DecidableEq

def AuthErrorReason.name : AuthErrorReason → String
  | .malformed => "malformed"
  | .wrongPurpose => "wrong_purpose"
  | .signatureInvalid => "signature_invalid"
  | .claimsInvalid => "claims_invalid"
  | .notYetValid => "not_yet_valid"
  | .expired => "expired"
  | .attemptMismatch => "attempt_mismatch"

def MAX_CREDENTIAL_LENGTH : Nat := 4096

def ENVELOPE_DOMAIN : JsString := js "assaybank.envelope.v1"

/-- The signed string: purpose and payload together. -/
def signedMessage (prefixTag payload : JsString) : JsString :=
  joinWith (js ".") [ENVELOPE_DOMAIN, prefixTag, payload]

/-- The wire string of a payload under its signature. -/
def sealPayload (mac : Mac) (prefixTag payload secret : JsString) : JsString :=
  joinWith (js ".") [prefixTag, payload, mac.hmacHex secret (signedMessage prefixTag payload)]

/-- Serialises claims, signs them and returns the wire string. -/
def sealEnvelope (mac : Mac) (prefixTag : JsString) (claims : Value) (secret : JsString) :
    JsString :=
  sealPayload mac prefixTag (encodeBase64Url (jsonText claims)) secret

/-- Authenticates a wire string and returns its claims, not yet checked. -/
def openEnvelope (mac : Mac) (readClaims : JsString → Option Value)
    (credential prefixTag secret : JsString) : Except AuthErrorReason Value :=
  if credential.length = 0 ∨ MAX_CREDENTIAL_LENGTH < credential.length then .error .malformed
  else
    match splitOn (unit '.') credential with
    | [presentedPrefix, payload, signature] =>
        if payload.length = 0 then .error .malformed
        else if presentedPrefix ≠ prefixTag then .error .wrongPurpose
        else if !constantTimeEquals (mac.hmacHex secret (signedMessage prefixTag payload)) signature
          then .error .signatureInvalid
        else
          match readClaims payload with
          | none => .error .claimsInvalid
          | some claims => .ok claims
    | _ => .error .malformed

/-! ### Token hashes -/

def TOKEN_HASH_VERSION : JsString := js "v1"

def TOKEN_HASH_DOMAIN : JsString := js "assaybank.token.v1"

/-- The unit separator. -/
def SEPARATOR : JsString := [0x1F]

/-- The form of a token that is stored (`packages/auth/src/token.ts`). -/
def hashToken (mac : Mac) (plaintext pepper : JsString) : JsString :=
  TOKEN_HASH_VERSION ++ js "$" ++ mac.hmacHex pepper (TOKEN_HASH_DOMAIN ++ SEPARATOR ++ plaintext)

/-! ### One form -/

private theorem ascii_of_hexDigit {c : CodeUnit} (digit : isHexDigit c = true) : c < 128 := by
  simp only [isHexDigit, isDigit, Bool.or_eq_true, Bool.and_eq_true, decide_eq_true_eq] at digit
  rcases digit with (number | lower) | upper
  · exact UInt16.lt_of_le_of_lt number.2 (by decide)
  · exact UInt16.lt_of_le_of_lt lower.2 (by decide)
  · exact UInt16.lt_of_le_of_lt upper.2 (by decide)

theorem constantTimeEquals_hex {a b : JsString} (digits : a.all isHexDigit = true)
    (same : constantTimeEquals a b = true) : a = b := by
  apply utf8Bytes_inj_ascii _ (by simpa [constantTimeEquals] using same)
  intro c inside
  exact ascii_of_hexDigit (List.all_eq_true.mp digits c inside)

/-- The message that is signed determines the payload. -/
theorem signedMessage_inj {prefixTag payload other : JsString}
    (same : signedMessage prefixTag payload = signedMessage prefixTag other) : payload = other := by
  simpa [signedMessage, joinWith] using same

private theorem dot_notMem_hex {digits : JsString} (hex : digits.all isHexDigit = true) :
    unit '.' ∉ digits := by
  intro inside
  exact absurd (List.all_eq_true.mp hex _ inside) (by decide)

private theorem sealPayload_eq (mac : Mac) (prefixTag payload secret : JsString) :
    sealPayload mac prefixTag payload secret = prefixTag ++ unit '.' ::
      (payload ++ unit '.' :: mac.hmacHex secret (signedMessage prefixTag payload)) := by
  simp [sealPayload, joinWith, List.intercalate, js, unit]

/-- The sealed form of a payload is that of no other: no signature holds a dot. -/
theorem sealPayload_inj {mac : Mac} {prefixTag payload other secret : JsString}
    (same : sealPayload mac prefixTag payload secret = sealPayload mac prefixTag other secret) :
    payload = other := by
  rw [sealPayload_eq, sealPayload_eq, List.append_cancel_left_eq, List.cons.injEq] at same
  have reversed := congrArg List.reverse same.2
  rw [List.reverse_append, List.reverse_append, List.reverse_cons, List.reverse_cons,
    List.append_assoc, List.append_assoc, List.singleton_append, List.singleton_append] at reversed
  have afterDot (message rest : JsString) :
      ((mac.hmacHex secret message).reverse ++ unit '.' :: rest).dropWhile (· != unit '.') =
        unit '.' :: rest := by
    rw [List.dropWhile_append_of_pos]
    · rw [List.dropWhile_cons_of_neg (by simp)]
    · intro c inside
      rw [bne_iff_ne]
      rintro rfl
      exact dot_notMem_hex (mac.hexadecimal secret message) (List.mem_reverse.mp inside)
  have dropped := congrArg (List.dropWhile (· != unit '.')) reversed
  rw [afterDot, afterDot, List.cons.injEq] at dropped
  exact List.reverse_injective dropped.2

/-- A credential that opens is the sealed form of its payload, letter for letter. -/
theorem openEnvelope_text {mac : Mac} {readClaims : JsString → Option Value}
    {credential prefixTag secret : JsString} {claims : Value}
    (opened : openEnvelope mac readClaims credential prefixTag secret = .ok claims) :
    ∃ payload, credential = sealPayload mac prefixTag payload secret ∧
      readClaims payload = some claims := by
  unfold openEnvelope at opened
  split at opened
  · cases opened
  · split at opened
    · rename_i presented payload signature parts
      split_ifs at opened with empty purpose signed
      · split at opened
        · cases opened
        · rename_i read
          cases opened
          refine ⟨payload, ?_, read⟩
          have text : joinWith (js ".") (splitOn (unit '.') credential) = credential :=
            List.intercalate_splitOn (unit '.')
          rw [parts, not_ne_iff.mp purpose] at text
          rw [← text, sealPayload,
            constantTimeEquals_hex (mac.hexadecimal secret _) (by simpa using signed)]
    · cases opened

end Assaybank.Auth
