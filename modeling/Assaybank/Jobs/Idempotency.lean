import Assaybank.Jobs.BusinessKey
import Assaybank.Library.Basic
import Assaybank.Library.JsonReading

/-!
Owns `idempotent` (`apps/worker/src/idempotency.ts`) at the storage key of one business key, in one
process, step by step between its awaits.

Contract: a call joins the execution in flight, or starts one. An execution reads the record, runs
the guarded function when there is none it can read, and records what the function returned. The
store keeps what is written to it. What the function does is the scheduler's choice.

The thrown values are of any type. The metrics and the expiry of a record are left out.
-/

namespace Assaybank.Jobs.Idempotency

open Assaybank.Runtime Assaybank.Library Assaybank.Jobs

/-- A value of the runtime. `undefined` is `none`. -/
abbrev JsValue := Option Value

/-- `JSON.stringify({ v: result })`, which leaves `undefined` out. -/
def recordText (result : JsValue) : JsString :=
  jsonText (.object (result.toList.map fun value => (js "v", value)))

/-- The value of a record. One that cannot be read, or is no object, is absent. -/
def reviveRecord (raw : JsString) : Option JsValue :=
  match parseJson raw with
  | some (.object members) => some (member? members (js "v"))
  | _ => none

section Machine

variable {Error : Type}

abbrev Decoder (Error : Type) := Option (JsValue → Except Error JsValue)

def decodeRecorded (value : JsValue) : Decoder Error → Except Error JsValue
  | none => .ok value
  | some decode => decode value

/-- Where an execution stands: at the read of the record, after it, in the guarded function, at the
write of its result, after it, or settled. -/
inductive Phase (Error : Type) where
  | reading
  | read (raw : Option JsString)
  | running
  | recording (result : JsValue)
  | recorded (result : JsValue)
  | settled (outcome : Except Error JsValue)

/-- An execution, with the decoder of the call that started it. -/
structure Execution (Error : Type) where
  decode : Decoder Error
  phase : Phase Error

/-- A call: the execution it waits for, whether it started it, and what it returned or threw. -/
structure Call (Error : Type) where
  execution : Nat
  owner : Bool
  returned : Option (Except Error JsValue)

/-- The record, the promise in flight, the executions, the calls, and what the guarded function
returned so far. -/
structure World (Error : Type) where
  store : Option JsString
  inFlight : Option Nat
  executions : Nat → Option (Execution Error)
  started : Nat
  calls : Nat → Option (Call Error)
  completed : List JsValue

/-- A process that has called nothing, with a record or none. -/
def World.initial (store : Option JsString) : World Error :=
  ⟨store, none, fun _ => none, 0, fun _ => none, []⟩

/-- What a scheduler may do next. -/
inductive Event (Error : Type) where
  | call (id : Nat) (decode : Decoder Error)
  | readStore (execution : Nat)
  | readFails (execution : Nat) (error : Error)
  | resumeRead (execution : Nat)
  | returns (execution : Nat) (result : JsValue)
  | throws (execution : Nat) (error : Error)
  | writeStore (execution : Nat)
  | resumeWrite (execution : Nat)
  | resumeCall (id : Nat)

/-- An execution in another phase. -/
def World.advance (world : World Error) (execution : Nat) (run : Execution Error)
    (phase : Phase Error) : World Error :=
  { world with
    executions := Function.update world.executions execution (some { run with phase := phase }) }

/-- The synchronous part of a call: it joins the execution in flight, or starts one. -/
def World.idempotent (world : World Error) (id : Nat) (decode : Decoder Error) : World Error :=
  match world.inFlight with
  | some pending =>
      { world with calls := Function.update world.calls id (some ⟨pending, false, none⟩) }
  | none =>
      { world with
        inFlight := some world.started
        executions := Function.update world.executions world.started (some ⟨decode, .reading⟩)
        started := world.started + 1
        calls := Function.update world.calls id (some ⟨world.started, true, none⟩) }

/-- The end of a call whose execution has settled. The one that started it clears the promise. -/
def World.finish (world : World Error) (id : Nat) (call : Call Error)
    (outcome : Except Error JsValue) : World Error :=
  { world with
    inFlight := if call.owner then none else world.inFlight
    calls := Function.update world.calls id (some { call with returned := some outcome }) }

/-- What an execution does next, in its phase. An event that is not enabled changes nothing. -/
def World.progress (world : World Error) (execution : Nat) (run : Execution Error) : Event Error → Phase Error → World Error
  | .readStore _, .reading => world.advance execution run (.read world.store)
  | .readFails _ error, .reading => world.advance execution run (.settled (.error error))
  | .resumeRead _, .read raw =>
      match raw.bind (reviveRecord) with
      | some value => world.advance execution run (.settled (decodeRecorded value run.decode))
      | none => world.advance execution run .running
  | .returns _ result, .running =>
      { world.advance execution run (.recording result) with
        completed := world.completed ++ [result] }
  | .throws _ error, .running => world.advance execution run (.settled (.error error))
  | .writeStore _, .recording result =>
      { world.advance execution run (.recorded result) with store := some (recordText result) }
  | .resumeWrite _, .recorded result => world.advance execution run (.settled (.ok result))
  | _, _ => world

/-- The execution an event is about. -/
def Event.execution? : Event Error → Option Nat
  | .call _ _ => none
  | .resumeCall _ => none
  | .readStore execution => some execution
  | .readFails execution _ => some execution
  | .resumeRead execution => some execution
  | .returns execution _ => some execution
  | .throws execution _ => some execution
  | .writeStore execution => some execution
  | .resumeWrite execution => some execution

/-- The outcome of a settled execution. -/
def Phase.outcome? : Phase Error → Option (Except Error JsValue)
  | .settled outcome => some outcome
  | _ => none

/-- What a call returns: its execution has settled, and it has not returned yet. A call that joined an
execution gets its value as it is. -/
def World.answer? (world : World Error) (call : Call Error) : Option (Except Error JsValue) :=
  if call.returned.isSome then none
  else (world.executions call.execution).bind fun run => run.phase.outcome?

def World.step (world : World Error) (event : Event Error) :
    World Error :=
  match event with
  | .call id decode => if (world.calls id).isSome then world else world.idempotent id decode
  | .resumeCall id =>
      (world.calls id).elim world fun call =>
        (world.answer? call).elim world fun outcome => world.finish id call outcome
  | event =>
      event.execution?.elim world fun execution =>
        (world.executions execution).elim world fun run =>
          world.progress execution run event run.phase

def World.run (world : World Error) (events : List (Event Error)) :
    World Error :=
  events.foldl World.step world

end Machine

end Assaybank.Jobs.Idempotency
