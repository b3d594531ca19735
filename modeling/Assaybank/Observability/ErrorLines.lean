import Assaybank.Observability.Noninterference

/-!
Owns what a serialised error depends on (`packages/observability/src/redaction.ts`).

Contract: a stack begins with the name and the message, and a line of the message that begins with
`at ` is taken for a frame. So two errors that differ in their messages, at any depth of the cause
chain, are serialised to the same exactly when those lines and the frames after them agree as far as
they are emitted (`serialiseError_same_iff`).
-/

namespace Assaybank.Observability

open Assaybank.Runtime Assaybank.Library

/-! ### Errors as an engine makes them -/

/-- An error with what its stack is made of. -/
structure Thrown where
  name : JsString
  /-- The name the stack begins with, which is that of the constructor. -/
  stackName : JsString
  message : JsString
  fields : List (JsString × JsValue)
  /-- The frames, each as it stands after `at `. -/
  frames : List JsString
  cause : JsValue

/-- The name and the message as a stack begins with them: one alone where the other is empty. -/
def errorHeader (name message : JsString) : JsString :=
  if name = [] then message else if message = [] then name else name ++ js ": " ++ message

/-- The header, and a line for each frame. -/
def stackText (header : JsString) (frames : List JsString) : JsString :=
  header ++ frames.flatMap fun frame => unit '\n' :: (js "    at " ++ frame)

/-- The error as it is read. -/
def Thrown.toError (thrown : Thrown) : JsError :=
  ⟨thrown.name, thrown.fields,
    some (stackText (errorHeader thrown.stackName thrown.message) thrown.frames), thrown.cause⟩

/-- The lines of a text that are taken for frames. -/
def frameLines (text : JsString) : List JsString :=
  ((splitOn (unit '\n') text).map trim).filter fun line => (js "at ").isPrefixOf line

/-- The lines emitted for an error: those of its header that are taken for frames, and then its
frames, up to the limit. -/
def Thrown.emitted (thrown : Thrown) : List JsString :=
  (frameLines (errorHeader thrown.stackName thrown.message) ++
    thrown.frames.flatMap fun frame => frameLines (js "    at " ++ frame)).take MAX_STACK_FRAMES

/-- By induction on the frames: each begins a line of its own. -/
theorem frameLines_stackText (header : JsString) (frames : List JsString) :
    frameLines (stackText header frames) =
      frameLines header ++ frames.flatMap fun frame => frameLines (js "    at " ++ frame) := by
  induction frames generalizing header with
  | nil => rw [stackText, List.flatMap_nil, List.flatMap_nil, List.append_nil, List.append_nil]
  | cons frame rest inductionHypothesis =>
      have split : stackText header (frame :: rest) =
          header ++ unit '\n' :: stackText (js "    at " ++ frame) rest := by
        rw [stackText, stackText, List.flatMap_cons, List.cons_append]
      have lines : frameLines (header ++ unit '\n' :: stackText (js "    at " ++ frame) rest) =
          frameLines header ++ frameLines (stackText (js "    at " ++ frame) rest) := by
        rw [frameLines, splitOn, List.splitOn_append_cons_self, List.map_append, List.filter_append]
        rfl
      rw [split, lines, inductionHypothesis, List.flatMap_cons]

theorem stackFrames_eq (thrown : Thrown) :
    stackFrames (stackText (errorHeader thrown.stackName thrown.message) thrown.frames) =
      thrown.emitted := by
  show (frameLines _).take MAX_STACK_FRAMES = _
  rw [frameLines_stackText]
  rfl

/-! ### The cause chain -/

/-- The error so many causes down from an error. -/
def causeAt (heap : Heap) : Nat → Ref → Option Ref
  | 0, ref => if (errorOf heap (.object ref)).isSome then some ref else none
  | depth + 1, ref =>
      match errorOf heap (.object ref) with
      | none => none
      | some error =>
          match error.cause with
          | .object next => causeAt heap depth next
          | _ => none

section Chains

variable (heap other : Heap) (R S : Ref → Ref → Prop)

/-- Causes of one structure: two errors that correspond, or what is no error and of one shape. -/
inductive SameCause : JsValue → JsValue → Prop
  | error {left right : Ref} (corresponds : R left right) : SameCause (.object left) (.object right)
  | other {left right : JsValue} (noError : errorOf heap left = none)
      (noError' : errorOf other right = none) (same : SameValue S left right) :
      SameCause left right

/-- Errors that differ in nothing but their messages and their fields outside the allow list. -/
structure SameThrown (left right : Thrown) : Prop where
  name : left.name = right.name
  stackName : left.stackName = right.stackName
  fields : ∀ field ∈ ERROR_FIELD_ALLOW_LIST, left.fields.lookup field = right.fields.lookup field
  frames : left.frames = right.frames
  cause : SameCause heap other R S left.cause right.cause

/-- The errors of two memories correspond at any depth of their cause chains. -/
structure SameErrors (errors others : Ref → Thrown) : Prop where
  left : ∀ ref ref', R ref ref' → heap ref = .error (errors ref).toError
  right : ∀ ref ref', R ref ref' → other ref' = .error (others ref').toError
  same : ∀ ref ref', R ref ref' → SameThrown heap other R S (errors ref) (others ref')

/-- At each of so many levels of the cause chains the same lines are emitted. -/
def EmitSame (errors others : Ref → Thrown) (levels : Nat) (left right : Ref) : Prop :=
  ∀ depth ≤ levels, ∀ ref ref', causeAt heap depth left = some ref →
    causeAt other depth right = some ref' → (errors ref).emitted = (others ref').emitted

end Chains

/-! ### The fields of one error -/

/-- The fields of an error before its cause. -/
def shownFields (error : JsError) : List (JsString × Output) :=
  (js "type", .string error.name) :: allowedFields error ++ framesField error.stack

private theorem framesField_toError (thrown : Thrown) :
    framesField thrown.toError.stack =
      if 0 < thrown.emitted.length then
        [(js "stack_frames", .array (thrown.emitted.map .string))]
      else [] := by
  rw [← stackFrames_eq]
  rfl

/-- The field of the frames says which lines are emitted. -/
private theorem framesField_inj {left right : Thrown} :
    framesField left.toError.stack = framesField right.toError.stack ↔
      left.emitted = right.emitted := by
  rw [framesField_toError, framesField_toError]
  constructor
  · intro same
    cases first : left.emitted with
    | nil =>
        cases second : right.emitted with
        | nil => rfl
        | cons line rest => simp [first, second] at same
    | cons line rest =>
        cases second : right.emitted with
        | nil => simp [first, second] at same
        | cons line' rest' =>
            have strings : Function.Injective Output.string := fun _ _ same => by injection same
            rw [first, second, List.length_cons, List.length_cons, if_pos (Nat.succ_pos _),
              if_pos (Nat.succ_pos _)] at same
            injection same with entry _
            injection entry with _ array
            injection array with lines
            exact strings.list_map lines
  · intro same
    rw [same]

section Alike

variable {heap other : Heap} {R S : Ref → Ref → Prop} {left right : Thrown}

theorem allowedFields_congr (same : SameThrown heap other R S left right) :
    allowedFields left.toError = allowedFields right.toError := by
  apply List.filterMap_congr
  intro field listed
  have found : left.toError.fields.lookup field = right.toError.fields.lookup field :=
    same.fields field listed
  rw [found]

theorem shownFields_inj (same : SameThrown heap other R S left right) :
    shownFields left.toError = shownFields right.toError ↔ left.emitted = right.emitted := by
  have name : left.toError.name = right.toError.name := same.name
  rw [shownFields, shownFields, name, allowedFields_congr same, List.append_cancel_left_eq,
    framesField_inj]

end Alike

/-! ### Levels of a chain -/

section Levels

variable {heap other : Heap} {errors others : Ref → Thrown} {ref next next' left right : Ref}
  {error : JsError} {levels : Nat}

private theorem causeAt_zero (here : heap ref = .error error) : causeAt heap 0 ref = some ref := by
  rw [causeAt, errorOf, here]
  rfl

private theorem causeAt_succ (here : heap ref = .error error) (cause : error.cause = .object next)
    (depth : Nat) : causeAt heap (depth + 1) ref = causeAt heap depth next := by
  rw [causeAt, errorOf, here]
  simp only [cause]

private theorem causeAt_of_noError (noError : errorOf heap (.object ref) = none) (depth : Nat) :
    causeAt heap depth ref = none := by
  cases depth with
  | zero => rw [causeAt, noError]; rfl
  | succ depth => rw [causeAt, noError]

/-- A chain ends in a cause that is no error. -/
private theorem causeAt_end (here : heap ref = .error error)
    (noError : errorOf heap error.cause = none) (depth : Nat) :
    causeAt heap (depth + 1) ref = none := by
  rw [causeAt, errorOf, here]
  dsimp only
  generalize error.cause = cause at noError
  cases cause with
  | object next => exact causeAt_of_noError noError depth
  | _ => rfl

/-- Where either chain ends, or no level is left, only the errors themselves have to agree. -/
private theorem emitSame_end (zero : causeAt heap 0 left = some left)
    (zero' : causeAt other 0 right = some right)
    (ends : ∀ depth, depth + 1 ≤ levels → causeAt heap (depth + 1) left = none) :
    EmitSame heap other errors others levels left right ↔
      (errors left).emitted = (others right).emitted := by
  constructor
  · intro same
    exact same 0 (Nat.zero_le _) left right zero zero'
  · intro here depth within ref ref' found found'
    cases depth with
    | zero =>
        rw [zero] at found
        rw [zero'] at found'
        cases found
        cases found'
        exact here
    | succ depth =>
        rw [ends depth within] at found
        cases found

/-- A level more is the level of the errors themselves and those of their causes. -/
private theorem emitSame_succ (zero : causeAt heap 0 left = some left)
    (zero' : causeAt other 0 right = some right)
    (later : ∀ depth, causeAt heap (depth + 1) left = causeAt heap depth next)
    (later' : ∀ depth, causeAt other (depth + 1) right = causeAt other depth next') :
    EmitSame heap other errors others (levels + 1) left right ↔
      (errors left).emitted = (others right).emitted ∧
        EmitSame heap other errors others levels next next' := by
  constructor
  · intro same
    refine ⟨same 0 (Nat.zero_le _) left right zero zero', ?_⟩
    intro depth within ref ref' found found'
    exact same (depth + 1) (Nat.succ_le_succ within) ref ref' ((later depth).trans found)
      ((later' depth).trans found')
  · rintro ⟨here, below⟩ depth within ref ref' found found'
    cases depth with
    | zero =>
        rw [zero] at found
        rw [zero'] at found'
        cases found
        cases found'
        exact here
    | succ depth =>
        exact below depth (Nat.le_of_succ_le_succ within) ref ref' ((later depth).symm.trans found)
          ((later' depth).symm.trans found')

end Levels

/-! ### Two chains -/

/-- Two results that are errors alike, and outputs alike when a condition holds. -/
structure AlikeWhen (first second : Except Stopped Output) (condition : Prop) : Prop where
  outputs : ∀ out, first = .ok out → (second = .ok out ↔ condition)
  stops : ∀ stopped, first = .error stopped ↔ second = .error stopped

theorem AlikeWhen.congr {first second : Except Stopped Output} {condition condition' : Prop}
    (alike : AlikeWhen first second condition) (same : condition ↔ condition') :
    AlikeWhen first second condition' :=
  ⟨fun out returned => (alike.outputs out returned).trans same, alike.stops⟩

theorem alikeWhen_ok {out out' : Output} : AlikeWhen (.ok out) (.ok out') (out = out') := by
  constructor
  · intro given same
    cases same
    constructor
    · intro also
      cases also
      rfl
    · intro also
      rw [also]
  · intro stopped
    exact iff_of_false (fun same => nomatch same) (fun same => nomatch same)

/-- Fields and a cause after them are alike when both are. -/
private theorem AlikeWhen.withCause {first second : Except Stopped Output} {condition : Prop}
    (alike : AlikeWhen first second condition) (fields fields' : List (JsString × Output)) :
    AlikeWhen
      (first >>= fun cause => .ok (.record .undefined (fields ++ [(js "cause", cause)])))
      (second >>= fun cause => .ok (.record .undefined (fields' ++ [(js "cause", cause)])))
      (fields = fields' ∧ condition) := by
  cases returned : first with
  | error stopped =>
      rw [(alike.stops stopped).mp returned]
      constructor
      · intro out impossible
        cases impossible
      · intro other
        exact Iff.rfl
  | ok out =>
      have sameCause := alike.outputs out returned
      cases also : second with
      | error stopped =>
          rw [(alike.stops stopped).mpr also] at returned
          cases returned
      | ok out' =>
          rw [also] at sameCause
          apply alikeWhen_ok.congr
          constructor
          · intro same
            injection same with _ entries
            obtain ⟨before, last⟩ := List.append_inj' entries rfl
            injection last with entry _
            injection entry with _ causes
            exact ⟨before, sameCause.mp (congrArg Except.ok causes.symm)⟩
          · rintro ⟨before, holds⟩
            have causes := sameCause.mpr holds
            injection causes with causes
            rw [before, causes]

private theorem alikeWhen_refl (result : Except Stopped Output) : AlikeWhen result result True :=
  ⟨fun _ returned => iff_of_true returned trivial, fun _ => Iff.rfl⟩

/-- A record of fields and nothing more. -/
private theorem alikeWhen_record {fields fields' : List (JsString × Output)} :
    AlikeWhen (.ok (.record .undefined fields)) (.ok (.record .undefined fields'))
      (fields = fields') := by
  apply alikeWhen_ok.congr
  constructor
  · intro same
    injection same
  · intro same
    rw [same]

section Serialised

variable {next : JsValue → Except Stopped Output} {depth : Nat} {error : JsError}

private theorem serialiseFields_followed (followed : error.cause ≠ .undefined ∧ depth < MAX_DEPTH) :
    serialiseFields next depth error = next error.cause >>= fun cause =>
      .ok (.record .undefined (shownFields error ++ [(js "cause", cause)])) := by
  unfold serialiseFields
  exact if_pos followed

private theorem serialiseFields_alone (alone : ¬ (error.cause ≠ .undefined ∧ depth < MAX_DEPTH)) :
    serialiseFields next depth error = .ok (.record .undefined (shownFields error)) := by
  unfold serialiseFields
  exact if_neg alone

end Serialised

/-- By induction on the fuel, one error of the chains at a time. -/
theorem walkErrors_alike {heap other : Heap} {R S : Ref → Ref → Prop} {errors others : Ref → Thrown}
    (same : SameErrors heap other R S errors others) (shape : SameShape heap other S) (fuel : Nat)
    {depth : Nat} {left right : Ref} (corresponds : R left right) :
    AlikeWhen (walkError heap fuel [] depth (.object left))
      (walkError other fuel [] depth (.object right))
      (EmitSame heap other errors others (MAX_DEPTH - depth) left right) := by
  induction fuel generalizing depth left right with
  | zero => exact ⟨fun out impossible => (by cases impossible), fun _ => Iff.rfl⟩
  | succ fuel inductionHypothesis =>
      have here := same.left left right corresponds
      have there := same.right left right corresponds
      have pair := same.same left right corresponds
      have zero := causeAt_zero here
      have zero' := causeAt_zero there
      rw [walkError, walkError, errorOf, errorOf, here, there]
      dsimp only
      by_cases shallow : depth < MAX_DEPTH
      · have oneMore : MAX_DEPTH - depth = MAX_DEPTH - (depth + 1) + 1 := by omega
        have causes := pair.cause
        generalize first : (errors left).cause = cause at causes
        generalize second : (others right).cause = cause' at causes
        have first' : (errors left).toError.cause = cause := first
        have second' : (others right).toError.cause = cause' := second
        cases causes with
        | error corresponds =>
            have followed := @inductionHypothesis (depth + 1) _ _ corresponds
            rw [serialiseFields_followed ⟨by rw [first']; exact JsValue.noConfusion, shallow⟩,
              serialiseFields_followed ⟨by rw [second']; exact JsValue.noConfusion, shallow⟩,
              first', second', oneMore,
              emitSame_succ zero zero' (causeAt_succ here first') (causeAt_succ there second'),
              ← shownFields_inj pair]
            exact followed.withCause _ _
        | other noError noError' sameValue =>
            have ends : ∀ deeper, deeper + 1 ≤ MAX_DEPTH - depth →
                causeAt heap (deeper + 1) left = none :=
              fun deeper _ => causeAt_end here (by rw [first']; exact noError) deeper
            rw [emitSame_end zero zero' ends, ← shownFields_inj pair]
            by_cases nothing : cause = .undefined
            · have alone : ¬ ((errors left).toError.cause ≠ .undefined ∧ depth < MAX_DEPTH) :=
                fun followed => followed.1 (first'.trans nothing)
              have alone' : ¬ ((others right).toError.cause ≠ .undefined ∧ depth < MAX_DEPTH) :=
                fun followed => followed.1 (second'.trans (sameValue.undefined_iff.mp nothing))
              rw [serialiseFields_alone alone, serialiseFields_alone alone']
              exact alikeWhen_record
            · have nothing' : cause' ≠ .undefined := by
                rw [ne_eq, ← sameValue.undefined_iff]
                exact nothing
              have start : Along heap S [] [] cause := ⟨.nil, fun _ inside => by cases inside⟩
              have agrees : walkError heap fuel [] (depth + 1) cause =
                  walkError other fuel [] (depth + 1) cause' :=
                (walks_agree shape fuel).errors start sameValue
              rw [serialiseFields_followed ⟨by rw [first']; exact nothing, shallow⟩,
                serialiseFields_followed ⟨by rw [second']; exact nothing', shallow⟩, first', second',
                ← agrees]
              apply AlikeWhen.congr ((alikeWhen_refl _).withCause _ _)
              exact and_iff_left trivial
      · have deepest : MAX_DEPTH - depth = 0 := by omega
        have alone : ∀ error : JsError, ¬ (error.cause ≠ .undefined ∧ depth < MAX_DEPTH) :=
          fun _ followed => shallow followed.2
        rw [serialiseFields_alone (alone _), serialiseFields_alone (alone _), deepest]
        apply alikeWhen_record.congr
        rw [shownFields_inj pair]
        have noLevel : ∀ depth, depth + 1 ≤ 0 → causeAt heap (depth + 1) left = none :=
          fun _ within => absurd within (Nat.not_succ_le_zero _)
        exact (emitSame_end zero zero' noLevel).symm

/-- Two errors that differ in nothing but their messages and their fields outside the allow list, at
any depth of the cause chain, are serialised to the same exactly when at each level that is followed
the lines of the headers that are taken for frames, and the frames after them, agree as far as they
are emitted. Serialising either ends; where it throws, on an invalid date in what the chain ends in,
so does the other. -/
theorem serialiseError_same_iff {heap other : Heap} {R S : Ref → Ref → Prop}
    {errors others : Ref → Thrown} (same : SameErrors heap other R S errors others)
    (shape : SameShape heap other S) {left right : Ref} (corresponds : R left right) {fuel : Nat}
    (enough : enoughFuel 0 + 1 ≤ fuel) :
    (∀ out, (serialiseError heap fuel 0 (.object left)).run' [] = .ok out →
      ((serialiseError other fuel 0 (.object right)).run' [] = .ok out ↔
        ∀ depth ≤ MAX_DEPTH, ∀ ref ref', causeAt heap depth left = some ref →
          causeAt other depth right = some ref' → (errors ref).emitted = (others ref').emitted)) ∧
    (∀ stopped, (serialiseError heap fuel 0 (.object left)).run' [] = .error stopped ↔
      (serialiseError other fuel 0 (.object right)).run' [] = .error stopped) ∧
    (serialiseError heap fuel 0 (.object left)).run' [] ≠ .error .unfinished := by
  rw [serialiseError_run', serialiseError_run']
  have alike : AlikeWhen (walkError heap fuel [] 0 (.object left))
      (walkError other fuel [] 0 (.object right))
      (EmitSame heap other errors others (MAX_DEPTH - 0) left right) :=
    walkErrors_alike same shape fuel corresponds
  exact ⟨alike.outputs, alike.stops, (walks_finish heap fuel).2 [] 0 _ enough⟩

/-! ### Two messages -/

/-- An error of one frame. -/
def thrownWith (message : JsString) : Thrown :=
  ⟨js "Error", js "Error", message, [], [js "solve (grade.js:3:7)"], .undefined⟩

/-- A memory of one error. -/
def thrownHeap (message : JsString) : Heap := fun _ => .error (thrownWith message).toError

private theorem thrown_same (message message' : JsString) :
    SameErrors (thrownHeap message) (thrownHeap message') (fun _ _ => True) (fun _ _ => False)
      (fun _ => thrownWith message) (fun _ => thrownWith message') :=
  ⟨fun _ _ _ => rfl, fun _ _ _ => rfl, fun _ _ _ =>
    ⟨rfl, rfl, fun _ _ => rfl, rfl, .other rfl rfl (.scalar fun _ same => nomatch same)⟩⟩

private theorem no_shape (heap other : Heap) : SameShape heap other (fun _ _ => False) :=
  ⟨fun _ _ impossible => impossible.elim, fun impossible => impossible.elim⟩

private theorem thrownHeap_returns (message : JsString) :
    (serialiseError (thrownHeap message) 18 0 (.object 0)).run' [] =
      .ok (.record .undefined (shownFields (thrownWith message).toError)) := by
  rw [serialiseError_run', walkError]
  exact serialiseFields_alone fun followed => followed.1 rfl

/-- A message of one line is not emitted. -/
theorem serialiseError_same_iff_example :
    (serialiseError (thrownHeap (js "lost")) 18 0 (.object 0)).run' [] =
      (serialiseError (thrownHeap (js "boom")) 18 0 (.object 0)).run' [] := by
  have same := thrown_same (js "boom") (js "lost")
  have emitted : (thrownWith (js "boom")).emitted = (thrownWith (js "lost")).emitted := by
    decide +kernel
  have returned := thrownHeap_returns (js "boom")
  rw [returned]
  exact ((serialiseError_same_iff same (no_shape _ _) trivial (by decide)).1 _ returned).mpr
    fun _ _ _ _ _ _ => emitted

/-- A line of a message that begins with `at ` is emitted as a frame. -/
theorem serialiseError_message_emitted :
    ¬ ∀ (heap other : Heap) (R S : Ref → Ref → Prop) (errors others : Ref → Thrown)
      (left right : Ref) (fuel : Nat), SameErrors heap other R S errors others →
      SameShape heap other S → R left right → enoughFuel 0 + 1 ≤ fuel →
      (serialiseError heap fuel 0 (.object left)).run' [] =
        (serialiseError other fuel 0 (.object right)).run' [] := by
  intro law
  have same := thrown_same (js "x") (js "x\nat the answer")
  have outputs := law _ _ _ _ _ _ 0 0 18 same (no_shape _ _) trivial (by decide)
  rw [thrownHeap_returns, thrownHeap_returns] at outputs
  injection outputs with outputs
  injection outputs with _ fields
  have emitted := (shownFields_inj (same.same 0 0 trivial)).mp fields
  revert emitted
  decide +kernel

end Assaybank.Observability
