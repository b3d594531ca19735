import Assaybank.Library.OrderedMap
import Assaybank.Library.Scoped
import Assaybank.Observability.DenyList
import Assaybank.Runtime.Calendar
import Assaybank.Runtime.Number

/-!
Owns the walk that redacts a log record (`packages/observability/src/redaction.ts`).

Contract: values are data in memory, so that a container can hold itself; the containers being
visited are a state of the walk, as in the source. It does not own objects whose properties are read
by code of their own.
-/

namespace Assaybank.Observability

open Assaybank.Runtime Assaybank.Library

def MAX_DEPTH : Nat := 8

def MAX_ENTRIES : Nat := 200

def MAX_STACK_FRAMES : Nat := 20

/-! ### Values -/

/-- An object, by its place in memory. -/
abbrev Ref := Nat

inductive JsValue where
  | undefined
  | null
  | string (value : JsString)
  | number (value : JsDouble)
  | boolean (value : Bool)
  | bigint (value : Int)
  | function
  | symbol
  | object (ref : Ref)
deriving DecidableEq

/-- An `Error`, with the fields that may be read of it. -/
structure JsError where
  name : JsString
  fields : List (JsString × JsValue)
  /-- The stack, where it is a string. -/
  stack : Option JsString
  /-- `undefined` where there is none. -/
  cause : JsValue

/-- What stands at a place in memory. -/
inductive Node where
  /-- A date by its milliseconds, or an invalid one. -/
  | date (time : Option Int)
  /-- An `ArrayBuffer` or a view of one. -/
  | binary
  | error (error : JsError)
  | array (items : List JsValue)
  | set (members : List JsValue)
  /-- The entries in order, each under `String(key)`. -/
  | map (entries : List (JsString × JsValue))
  /-- Any other object: what `Object.entries` gives. -/
  | record (entries : List (JsString × JsValue))

abbrev Heap := Ref → Node

/-- The error a value is, where `value instanceof Error`. -/
def errorOf (heap : Heap) : JsValue → Option JsError
  | .object ref =>
      match heap ref with
      | .error error => some error
      | _ => none
  | _ => none

/-- What a walk gives. -/
inductive Output where
  | undefined
  | null
  | string (value : JsString)
  | number (value : JsDouble)
  | boolean (value : Bool)
  | array (items : List Output)
  /-- The entries in the order they were set. `undefined` for a prototype is `Object.prototype`. -/
  | record (prototype : Output) (entries : List (JsString × Output))

/-- Why a walk gives nothing. -/
inductive Stopped where
  /-- `RangeError: Invalid time value` -/
  | invalidTime
  /-- The walk would have to go on. -/
  | unfinished
deriving DecidableEq

/-- A walk over the containers being visited. -/
abbrev Walk := StateT (List Ref) (Except Stopped)

/-! ### Writing the output -/

/-- Whether assigning `__proto__` to an object meets the accessor of `Object.prototype`: no object
up the chain holds the name itself, and the chain does not end early. -/
def meetsProtoAccessor : Output → Bool
  | .null => false
  | .record prototype entries =>
      (entries.lookup (js "__proto__")).isNone && meetsProtoAccessor prototype
  | _ => true

/-- `out[key] = value`. Under `__proto__` an object or `null` becomes the prototype and any other
value is dropped. -/
def assign (out : Output) (key : JsString) (value : Output) : Output :=
  match out with
  | .record prototype entries =>
      if key = js "__proto__" ∧ meetsProtoAccessor out = true then
        match value with
        | .null | .array _ | .record _ _ => .record value entries
        | _ => out
      else .record prototype (setEntry entries key value)
  | _ => out

section Parts

variable {m : Type → Type} [Monad m]

/-- The loop over the items of an array. -/
def redactItems (next : JsValue → m Output) (items : List JsValue) : m Output := do
  let out ← (items.take MAX_ENTRIES).mapM next
  return .array (if MAX_ENTRIES < items.length then out ++ [.string TRUNCATED] else out)

/-- The body of a loop over entries. -/
def redactEntry (next : JsValue → m Output) (out : Output) (entry : JsString × JsValue) :
    m Output :=
  if isDeniedKey entry.1 then return assign out entry.1 (.string REDACTED)
  else do
    let value ← next entry.2
    return assign out entry.1 value

/-- The loop over entries. -/
def redactEntries (next : JsValue → m Output) (entries : List (JsString × JsValue)) : m Output :=
  entries.foldlM (redactEntry next) (.record .undefined [])

/-! ### Errors -/

/-- Fields of an error that cannot carry candidate or question data. -/
def ERROR_FIELD_ALLOW_LIST : List JsString :=
  ["code", "constraint", "table", "routine", "severity", "errno", "syscall"].map js

/-- The fields of an error on the allow list that hold a string or a number. -/
def allowedFields (error : JsError) : List (JsString × Output) :=
  ERROR_FIELD_ALLOW_LIST.filterMap fun field =>
    match error.fields.lookup field with
    | some (.string value) => some (field, .string value)
    | some (.number value) => some (field, .number value)
    | _ => none

/-- The lines of a stack that are frames. -/
def stackFrames (stack : JsString) : List JsString :=
  (((splitOn (unit '\n') stack).map trim).filter fun line => (js "at ").isPrefixOf line).take
    MAX_STACK_FRAMES

/-- The frames as a field, where there are any. -/
def framesField (stack : Option JsString) : List (JsString × Output) :=
  match stack with
  | none => []
  | some stack =>
      let frames := stackFrames stack
      if 0 < frames.length then [(js "stack_frames", .array (frames.map .string))] else []

/-- The body of `serialiseError` for an error, with what serialises its cause. -/
def serialiseFields (next : JsValue → m Output) (depth : Nat) (error : JsError) : m Output := do
  let fields := (js "type", .string error.name) :: allowedFields error ++ framesField error.stack
  if error.cause ≠ .undefined ∧ depth < MAX_DEPTH then
    let cause ← next error.cause
    return .record .undefined (fields ++ [(js "cause", cause)])
  else return .record .undefined fields

end Parts

/-! ### The walk -/

/-- `toString` of a `bigint`. -/
def bigintText (n : Int) : JsString := (if n < 0 then js "-" else []) ++ natText n.natAbs

/-- The three checks before a container is walked, and after which the walk of it is a scope. -/
def guarded (ref : Ref) (depth : Nat) (walk : Walk Output) : Walk Output := do
  let visited ← get
  if visited.contains ref then return .string CIRCULAR
  else if MAX_DEPTH ≤ depth then return .string TRUNCATED
  else walk

/-- `visited.add(value)`, the walk of the value, and `visited.delete(value)`, which a walk that
throws reaches too. -/
def visiting (ref : Ref) (walk : Walk Output) : Walk Output :=
  bracket (ref :: ·) (·.erase ref) walk

mutual

/-- The fuel is the calls that may still be nested. -/
def redactValue (heap : Heap) : Nat → Nat → JsValue → Walk Output
  | 0, _, _ => throw .unfinished
  | fuel + 1, depth, value =>
      match value with
      | .undefined => return .undefined
      | .null => return .null
      | .string value => return .string (redactString value)
      | .number value => return .number value
      | .boolean value => return .boolean value
      | .bigint value => return .string (bigintText value)
      | .function | .symbol => return .string REDACTED
      | .object ref =>
          match heap ref with
          | .date none => throw .invalidTime
          | .date (some time) => return .string (toISOString time)
          | .binary => return .string BINARY
          | .error error =>
              guarded ref depth (serialiseFields (serialiseError heap fuel (depth + 1)) depth error)
          | .array items =>
              guarded ref depth (visiting ref
                (redactItems (redactValue heap fuel (depth + 1)) items))
          -- The array made of a set's members stands nowhere else, so that it is visited is seen
          -- by no one; it is walked at the depth of the set.
          | .set members =>
              guarded ref depth (visiting ref
                (redactItems (redactValue heap fuel (depth + 1)) (members.take MAX_ENTRIES)))
          | .map entries | .record entries =>
              guarded ref depth (visiting ref
                (redactEntries (redactValue heap fuel (depth + 1)) (entries.take MAX_ENTRIES)))

def serialiseError (heap : Heap) : Nat → Nat → JsValue → Walk Output
  | 0, _, _ => throw .unfinished
  | fuel + 1, depth, value =>
      match errorOf heap value with
      | some error => serialiseFields (serialiseError heap fuel (depth + 1)) depth error
      | none => redactValue heap fuel depth value

end

/-- Each value is walked from depth one with nothing visited. -/
def redactRecord (heap : Heap) (fuel : Nat) (entries : List (JsString × JsValue)) :
    Except Stopped Output :=
  redactEntries (fun value => (redactValue heap fuel 1 value).run' []) entries

end Assaybank.Observability
