import Assaybank.Observability.Redaction

/-!
Owns when the walk that redacts a log record ends, and what it has to do with the containers it
visits (`packages/observability/src/redaction.ts`).

Contract: the visited containers are left as they were found, so the walk gives what a walk that
carries its path downwards gives (`walks_restore`, `redactRecord_eq`). Two calls for each level and
one more are enough for any value, cyclic ones included (`walks_finish`), and more change nothing
(`walks_stable`).
-/

namespace Assaybank.Observability

open Assaybank.Runtime Assaybank.Library

/-! ### The walk along a path -/

/-- The checks before a container, with the containers being visited given. -/
def guardedAlong (path : List Ref) (ref : Ref) (depth : Nat) (walk : Except Stopped Output) :
    Except Stopped Output :=
  if path.contains ref then .ok (.string CIRCULAR)
  else if MAX_DEPTH ≤ depth then .ok (.string TRUNCATED)
  else walk

mutual

/-- `redactValue` with the containers being visited as an argument. -/
def walkValue (heap : Heap) : Nat → List Ref → Nat → JsValue → Except Stopped Output
  | 0, _, _, _ => .error .unfinished
  | fuel + 1, path, depth, value =>
      match value with
      | .undefined => .ok .undefined
      | .null => .ok .null
      | .string value => .ok (.string (redactString value))
      | .number value => .ok (.number value)
      | .boolean value => .ok (.boolean value)
      | .bigint value => .ok (.string (bigintText value))
      | .function | .symbol => .ok (.string REDACTED)
      | .object ref =>
          match heap ref with
          | .date none => .error .invalidTime
          | .date (some time) => .ok (.string (toISOString time))
          | .binary => .ok (.string BINARY)
          | .error error =>
              guardedAlong path ref depth
                (serialiseFields (walkError heap fuel path (depth + 1)) depth error)
          | .array items =>
              guardedAlong path ref depth
                (redactItems (walkValue heap fuel (ref :: path) (depth + 1)) items)
          | .set members =>
              guardedAlong path ref depth
                (redactItems (walkValue heap fuel (ref :: path) (depth + 1))
                  (members.take MAX_ENTRIES))
          | .map entries | .record entries =>
              guardedAlong path ref depth
                (redactEntries (walkValue heap fuel (ref :: path) (depth + 1))
                  (entries.take MAX_ENTRIES))

/-- `serialiseError` with the containers being visited as an argument. -/
def walkError (heap : Heap) : Nat → List Ref → Nat → JsValue → Except Stopped Output
  | 0, _, _, _ => .error .unfinished
  | fuel + 1, path, depth, value =>
      match errorOf heap value with
      | some error => serialiseFields (walkError heap fuel path (depth + 1)) depth error
      | none => walkValue heap fuel path depth value

end

section Restored

variable {path : List Ref} {ref : Ref} {depth : Nat}

private theorem guarded_restores {walk : Walk Output} {result : Except Stopped Output}
    (restored : Restores path walk result) :
    Restores path (guarded ref depth walk) (guardedAlong path ref depth result) := by
  apply Restores.get
  unfold guardedAlong
  split
  · exact Restores.pure path _
  · split
    · exact Restores.pure path _
    · exact restored

private theorem visiting_restores {walk : Walk Output} {result : Except Stopped Output}
    (restored : Restores (ref :: path) walk result) :
    Restores path (visiting ref walk) result :=
  Restores.bracket (List.erase_cons_head ref path) restored

variable {next : JsValue → Walk Output} {plain : JsValue → Except Stopped Output}

private theorem redactItems_restores (turn : ∀ value, Restores path (next value) (plain value))
    (items : List JsValue) :
    Restores path (redactItems next items) (redactItems plain items) :=
  (Restores.mapM turn _).bind fun _ => Restores.pure path _

private theorem redactEntry_restores (turn : ∀ value, Restores path (next value) (plain value))
    (out : Output) (entry : JsString × JsValue) :
    Restores path (redactEntry next out entry) (redactEntry plain out entry) := by
  unfold redactEntry
  split
  · exact Restores.pure path _
  · exact (turn entry.2).bind fun _ => Restores.pure path _

private theorem redactEntries_restores (turn : ∀ value, Restores path (next value) (plain value))
    (entries : List (JsString × JsValue)) :
    Restores path (redactEntries next entries) (redactEntries plain entries) :=
  Restores.foldlM (redactEntry_restores turn) entries _

private theorem serialiseFields_restores
    (turn : ∀ value, Restores path (next value) (plain value)) (error : JsError) :
    Restores path (serialiseFields next depth error) (serialiseFields plain depth error) := by
  unfold serialiseFields
  dsimp only
  split
  · exact (turn error.cause).bind fun _ => Restores.pure path _
  · exact Restores.pure path _

end Restored

/-- By induction on the fuel: every scope is left, so either walk leaves the visited set as it found
it. -/
theorem walks_restore (heap : Heap) (fuel : Nat) :
    (∀ path depth value, Restores path (redactValue heap fuel depth value)
      (walkValue heap fuel path depth value)) ∧
    ∀ path depth value, Restores path (serialiseError heap fuel depth value)
      (walkError heap fuel path depth value) := by
  induction fuel with
  | zero => exact ⟨fun path _ _ => Restores.throw path _, fun path _ _ => Restores.throw path _⟩
  | succ fuel inductionHypothesis =>
      obtain ⟨values, errors⟩ := inductionHypothesis
      constructor
      · intro path depth value
        cases value with
        | object ref =>
            rw [redactValue, walkValue]
            cases heap ref with
            | date time =>
                cases time with
                | none => exact Restores.throw path _
                | some time => exact Restores.pure path _
            | binary => exact Restores.pure path _
            | error error =>
                exact guarded_restores (serialiseFields_restores (errors path (depth + 1)) error)
            | array items =>
                exact guarded_restores (visiting_restores
                  (redactItems_restores (values (ref :: path) (depth + 1)) items))
            | set members =>
                exact guarded_restores (visiting_restores
                  (redactItems_restores (values (ref :: path) (depth + 1)) _))
            | map entries =>
                exact guarded_restores (visiting_restores
                  (redactEntries_restores (values (ref :: path) (depth + 1)) _))
            | record entries =>
                exact guarded_restores (visiting_restores
                  (redactEntries_restores (values (ref :: path) (depth + 1)) _))
        | _ => exact Restores.pure path _
      · intro path depth value
        rw [serialiseError, walkError]
        cases errorOf heap value with
        | some error => exact serialiseFields_restores (errors path (depth + 1)) error
        | none => exact values path depth value

private theorem guardedAlong_congr {path : List Ref} {ref : Ref} {depth : Nat}
    {first second : Except Stopped Output} (same : depth < MAX_DEPTH → first = second) :
    guardedAlong path ref depth first = guardedAlong path ref depth second := by
  unfold guardedAlong
  split
  · rfl
  · split
    · rfl
    · rename_i shallow
      exact same (not_le.mp shallow)

/-! ### Enough fuel -/

/-- The calls a value at a depth may nest: a step for each level and one more for a cause that is no
error. -/
def enoughFuel (depth : Nat) : Nat := 2 * (MAX_DEPTH - depth) + 1

theorem enoughFuel_succ {fuel depth : Nat} (enough : enoughFuel depth ≤ fuel + 1)
    (shallow : depth < MAX_DEPTH) : enoughFuel (depth + 1) + 1 ≤ fuel := by
  unfold enoughFuel at *
  omega

/-- A result that does not ask for more fuel. -/
def Finished {α : Type} (result : Except Stopped α) : Prop := result ≠ .error .unfinished

section Finishes

variable {α β : Type}

theorem Finished.ok (a : α) : Finished (.ok a) := by
  intro impossible
  cases impossible

theorem Finished.bind {first : Except Stopped α} {next : α → Except Stopped β}
    (finished : Finished first) (later : ∀ a, Finished (next a)) : Finished (first >>= next) := by
  cases first with
  | error stopped =>
      intro same
      apply finished
      cases same
      rfl
  | ok a => exact later a

theorem Finished.mapM {step : α → Except Stopped β} (turn : ∀ a, Finished (step a))
    (items : List α) : Finished (items.mapM step) := by
  induction items with
  | nil => exact Finished.ok []
  | cons item rest inductionHypothesis =>
      rw [List.mapM_cons]
      exact (turn item).bind fun _ => inductionHypothesis.bind fun _ => Finished.ok _

theorem Finished.foldlM {step : β → α → Except Stopped β} (turn : ∀ b a, Finished (step b a))
    (items : List α) (start : β) : Finished (items.foldlM step start) := by
  induction items generalizing start with
  | nil => exact Finished.ok start
  | cons item rest inductionHypothesis =>
      rw [List.foldlM_cons]
      exact (turn start item).bind inductionHypothesis

variable {next : JsValue → Except Stopped Output}

theorem redactItems_finishes (turn : ∀ value, Finished (next value)) (items : List JsValue) :
    Finished (redactItems next items) :=
  (Finished.mapM turn _).bind fun _ => Finished.ok _

theorem redactEntries_finishes (turn : ∀ value, Finished (next value))
    (entries : List (JsString × JsValue)) : Finished (redactEntries next entries) := by
  apply Finished.foldlM
  intro out entry
  unfold redactEntry
  split
  · exact Finished.ok _
  · exact (turn entry.2).bind fun _ => Finished.ok _

private theorem serialiseFields_finishes {depth : Nat}
    (turn : depth < MAX_DEPTH → ∀ value, Finished (next value)) (error : JsError) :
    Finished (serialiseFields next depth error) := by
  unfold serialiseFields
  dsimp only
  split
  · rename_i followed
    exact (turn followed.2 error.cause).bind fun _ => Finished.ok _
  · exact Finished.ok _

private theorem guardedAlong_finishes {path : List Ref} {ref : Ref} {depth : Nat}
    {walk : Except Stopped Output} (finished : depth < MAX_DEPTH → Finished walk) :
    Finished (guardedAlong path ref depth walk) := by
  unfold guardedAlong
  split
  · exact Finished.ok _
  · split
    · exact Finished.ok _
    · rename_i shallow
      exact finished (not_le.mp shallow)

end Finishes

/-- By induction on the fuel: a level deeper takes less of it than is at hand. -/
theorem walks_finish (heap : Heap) (fuel : Nat) :
    (∀ path depth value, enoughFuel depth ≤ fuel →
      Finished (walkValue heap fuel path depth value)) ∧
    ∀ path depth value, enoughFuel depth + 1 ≤ fuel →
      Finished (walkError heap fuel path depth value) := by
  induction fuel with
  | zero =>
      constructor
      · intro path depth value enough
        unfold enoughFuel at enough
        omega
      · intro path depth value enough
        omega
  | succ fuel inductionHypothesis =>
      obtain ⟨values, errors⟩ := inductionHypothesis
      constructor
      · intro path depth value enough
        have deeper : depth < MAX_DEPTH → ∀ path value,
            Finished (walkValue heap fuel path (depth + 1) value) := by
          intro shallow path value
          have left := enoughFuel_succ enough shallow
          exact values path (depth + 1) value (by omega)
        cases value with
        | object ref =>
            rw [walkValue]
            cases heap ref with
            | date time =>
                cases time with
                | none =>
                    intro impossible
                    cases impossible
                | some time => exact Finished.ok _
            | binary => exact Finished.ok _
            | error error =>
                apply guardedAlong_finishes
                intro shallow
                apply serialiseFields_finishes
                intro _ value
                exact errors path (depth + 1) value (enoughFuel_succ enough shallow)
            | array items =>
                exact guardedAlong_finishes fun shallow =>
                  redactItems_finishes (deeper shallow _) _
            | set members =>
                exact guardedAlong_finishes fun shallow =>
                  redactItems_finishes (deeper shallow _) _
            | map entries =>
                exact guardedAlong_finishes fun shallow =>
                  redactEntries_finishes (deeper shallow _) _
            | record entries =>
                exact guardedAlong_finishes fun shallow =>
                  redactEntries_finishes (deeper shallow _) _
        | _ => exact Finished.ok _
      · intro path depth value enough
        have still : enoughFuel depth ≤ fuel := by omega
        rw [walkError]
        cases errorOf heap value with
        | some error =>
            apply serialiseFields_finishes
            intro shallow cause
            exact errors path (depth + 1) cause (enoughFuel_succ (by omega) shallow)
        | none => exact values path depth value still

/-- By induction on the fuel: where it is enough, one call more is never made. -/
theorem walks_stable (heap : Heap) (fuel : Nat) :
    (∀ path depth value, enoughFuel depth ≤ fuel →
      walkValue heap (fuel + 1) path depth value = walkValue heap fuel path depth value) ∧
    ∀ path depth value, enoughFuel depth + 1 ≤ fuel →
      walkError heap (fuel + 1) path depth value = walkError heap fuel path depth value := by
  induction fuel with
  | zero =>
      constructor
      · intro path depth value enough
        unfold enoughFuel at enough
        omega
      · intro path depth value enough
        omega
  | succ fuel inductionHypothesis =>
      obtain ⟨values, errors⟩ := inductionHypothesis
      have sameErrors : ∀ path depth, enoughFuel depth ≤ fuel + 1 → depth < MAX_DEPTH →
          walkError heap (fuel + 1) path (depth + 1) = walkError heap fuel path (depth + 1) :=
        fun path depth enough shallow =>
          funext fun value => errors path (depth + 1) value (enoughFuel_succ enough shallow)
      constructor
      · intro path depth value enough
        have sameValues : depth < MAX_DEPTH → ∀ path,
            walkValue heap (fuel + 1) path (depth + 1) = walkValue heap fuel path (depth + 1) := by
          intro shallow path
          have left := enoughFuel_succ enough shallow
          exact funext fun value => values path (depth + 1) value (by omega)
        cases value with
        | object ref =>
            rw [walkValue, walkValue]
            cases heap ref with
            | date time => cases time <;> rfl
            | binary => rfl
            | error error =>
                exact guardedAlong_congr fun shallow => by
                  rw [sameErrors path depth enough shallow]
            | array items =>
                exact guardedAlong_congr fun shallow => by rw [sameValues shallow]
            | set members =>
                exact guardedAlong_congr fun shallow => by rw [sameValues shallow]
            | map entries =>
                exact guardedAlong_congr fun shallow => by rw [sameValues shallow]
            | record entries =>
                exact guardedAlong_congr fun shallow => by rw [sameValues shallow]
        | _ => rfl
      · intro path depth value enough
        have still : enoughFuel depth ≤ fuel := by omega
        rw [walkError, walkError]
        cases errorOf heap value with
        | some error =>
            by_cases shallow : depth < MAX_DEPTH
            · rw [sameErrors path depth (by omega) shallow]
            · unfold serialiseFields
              simp only [shallow, and_false, if_false]
        | none => exact values path depth value still

/-! ### A record -/

/-- A value is redacted as the walk along a path redacts it, with nothing visited at first. -/
theorem redactValue_run' (heap : Heap) (fuel depth : Nat) (value : JsValue) :
    (redactValue heap fuel depth value).run' [] = walkValue heap fuel [] depth value :=
  ((walks_restore heap fuel).1 [] depth value).run'_eq

theorem serialiseError_run' (heap : Heap) (fuel depth : Nat) (value : JsValue) :
    (serialiseError heap fuel depth value).run' [] = walkError heap fuel [] depth value :=
  ((walks_restore heap fuel).2 [] depth value).run'_eq

theorem redactRecord_eq (heap : Heap) (fuel : Nat) (entries : List (JsString × JsValue)) :
    redactRecord heap fuel entries = redactEntries (walkValue heap fuel [] 1) entries := by
  unfold redactRecord
  congr 1
  exact funext fun value => redactValue_run' heap fuel 1 value

/-- The walk of a record ends, whatever its memory holds. -/
theorem redactRecord_finishes (heap : Heap) {fuel : Nat} (enough : enoughFuel 1 ≤ fuel)
    (entries : List (JsString × JsValue)) : Finished (redactRecord heap fuel entries) := by
  rw [redactRecord_eq]
  exact redactEntries_finishes (fun value => (walks_finish heap fuel).1 [] 1 value enough) entries

/-- What a record is redacted to does not depend on the fuel, once there is enough. -/
theorem redactRecord_stable (heap : Heap) {fuel : Nat} (enough : enoughFuel 1 ≤ fuel)
    (entries : List (JsString × JsValue)) :
    redactRecord heap fuel entries = redactRecord heap (enoughFuel 1) entries := by
  induction fuel, enough using Nat.le_induction with
  | base => rfl
  | succ fuel enough inductionHypothesis =>
      rw [← inductionHypothesis, redactRecord_eq, redactRecord_eq]
      congr 1
      exact funext fun value => (walks_stable heap fuel).1 [] 1 value enough

end Assaybank.Observability
