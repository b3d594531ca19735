import Assaybank.Auth.Envelope
import Assaybank.Library.JsonBytes
import Assaybank.Library.JsonReading

/-!
Owns the reading of the claims in an envelope (`openEnvelope` in `packages/auth/src/envelope.ts`):
base64url, UTF-8, JSON.

Contract: claims in ASCII are read back as they were sealed (`readClaims_encoded`).
-/

namespace Assaybank.Auth

open Assaybank.Runtime Assaybank.Library

/-- `JSON.parse(decodeBase64Url(payload))`, where a string with U+0000 or an unpaired half of a pair
is not read: no claim a key of this service signed has one. -/
def readClaims (payload : JsString) : Option Value := jsonbOf (utf8Text (fromBase64Url payload))

theorem readClaims_encoded {value : Value} (plain : isPlain value = true)
    (ascii : everyString isAsciiText value = true)
    (text : everyString isCharacterText value = true) :
    readClaims (encodeBase64Url (jsonText value)) = some value := by
  have units := ascii_jsonText value ascii
  have bytes : fromBase64Url (encodeBase64Url (jsonText value)) = utf8Bytes (jsonText value) := by
    refine fromBase64Url_toBase64Url fun byte among => ?_
    rw [utf8Bytes_ascii units] at among
    obtain ⟨c, inside, rfl⟩ := List.mem_map.mp among
    have small : c.toNat < 128 := by simpa [UInt16.lt_iff_toNat_lt] using units c inside
    omega
  rw [readClaims, bytes, utf8Text_utf8Bytes units, jsonbOf_jsonText plain, if_pos text]

end Assaybank.Auth
