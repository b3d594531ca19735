import Assaybank.Contracts.Question

/-!
Owns the refusals of the API (`packages/contracts/src/errors.ts` and `parse.ts`): the codes its
question routes answer with, their messages, and what a body is parsed to.
-/

namespace Assaybank.Contracts

open Assaybank.Runtime Assaybank.Library

inductive ErrorCode where
  | notFound
  | validationFailed
  | conflict
  | versionImmutable
  | internal
deriving DecidableEq

/-- The message of a refusal that names none. -/
def ErrorCode.message : ErrorCode → JsString
  | .notFound => js "The requested resource does not exist."
  | .validationFailed => js "The request was not valid."
  | .conflict => js "The request conflicts with the current state of the resource."
  | .versionImmutable => js "A published question version cannot be modified."
  | .internal => js "An unexpected error occurred."

/-- An instant of the server's clock, in milliseconds. -/
abbrev Instant := Nat

/-- One entry of `details`. -/
inductive ErrorDetail where
  | issue (issue : Issue)
  | field (field rule : JsString) (message : Option JsString)
  | text (key value : JsString)
  | number (key : JsString) (value : Nat)
  | instant (key : JsString) (value : Instant)
deriving DecidableEq

structure ApiError where
  code : ErrorCode
  message : JsString
  details : List ErrorDetail
deriving DecidableEq

namespace ApiError

/-- A refusal with the message of its code. -/
def of (code : ErrorCode) (details : List ErrorDetail) : ApiError := ⟨code, code.message, details⟩

def notFound : ApiError := of .notFound []

/-- What an error that no handler raised on purpose is answered with. -/
def internal : ApiError := of .internal []

end ApiError

/-- How many field failures one refusal lists. -/
def MAX_VALIDATION_FIELDS : Nat := 20

/-- The parsed part of a request, or the refusal that names what is wrong with it. -/
def parseRequestPart {α : Type} (schema : Schema α) (value : Value) : Except ApiError α :=
  match (schema.parse value).value, (schema.parse value).issues with
  | some a, [] => .ok a
  | _, issues => .error (.of .validationFailed ((issues.take MAX_VALIDATION_FIELDS).map .issue))

theorem parseRequestPart_ok {α : Type} {schema : Schema α} {value : Value} {a : α}
    (parsed : parseRequestPart schema value = .ok a) : schema.Accepts a := by
  unfold parseRequestPart at parsed
  split at parsed
  · rename_i read issues
    cases parsed
    have accepted : schema.parse value = .accepted a := by
      rw [Parsed.accepted, ← read, ← issues]
    exact Schema.accepts_of_parse accepted
  · cases parsed

end Assaybank.Contracts
