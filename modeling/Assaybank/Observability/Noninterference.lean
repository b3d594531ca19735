import Assaybank.Observability.Walk
import Mathlib.Data.List.Forall2
import Mathlib.Logic.Relation

/-!
Owns what a redacted log record may depend on (`packages/observability/src/redaction.ts`).

Contract: two records of one shape that differ in nothing but values under denied keys, at any depth
and in whatever containers, cyclic ones included, are redacted to one output
(`redactRecord_noninterference`).
-/

namespace Assaybank.Observability

open Assaybank.Runtime Assaybank.Library

/-! ### One shape -/

/-- What a walk may reach from an object: nothing under a denied key. -/
def Node.shown : Node → List JsValue
  | .array items => items
  | .set members => members
  | .map entries | .record entries =>
      (entries.filter fun entry => !isDeniedKey entry.1).map Prod.snd
  | .error thrown => [thrown.cause]
  | _ => []

/-- An object is held in another where a walk may reach it. -/
def Holds (heap : Heap) (outer inner : Ref) : Prop := .object inner ∈ (heap outer).shown

/-- An object is held in another at some depth. -/
def Reaches (heap : Heap) : Ref → Ref → Prop := Relation.ReflTransGen (Holds heap)

section Shape

variable (R : Ref → Ref → Prop)

/-- The same value, or objects that correspond. -/
inductive SameValue : JsValue → JsValue → Prop
  | scalar {value : JsValue} (noObject : ∀ ref, value ≠ .object ref) : SameValue value value
  | object {left right : Ref} (corresponds : R left right) :
      SameValue (.object left) (.object right)

theorem SameValue.undefined_iff {R : Ref → Ref → Prop} {left right : JsValue}
    (same : SameValue R left right) : left = .undefined ↔ right = .undefined := by
  cases same with
  | scalar noObject => exact Iff.rfl
  | object corresponds => exact iff_of_false JsValue.noConfusion JsValue.noConfusion

/-- Entries under one key, which hold the same value unless the key is denied. -/
def SameEntry (left right : JsString × JsValue) : Prop :=
  left.1 = right.1 ∧ (isDeniedKey left.1 = true ∨ SameValue R left.2 right.2)

/-- Objects of one kind that show the same. -/
inductive SameNode : Node → Node → Prop
  | date (time : Option Int) : SameNode (.date time) (.date time)
  | binary : SameNode .binary .binary
  | error {left right : JsError} (name : left.name = right.name)
      (fields : allowedFields left = allowedFields right)
      (frames : framesField left.stack = framesField right.stack)
      (cause : SameValue R left.cause right.cause) : SameNode (.error left) (.error right)
  | array {left right : List JsValue} (items : List.Forall₂ (SameValue R) left right) :
      SameNode (.array left) (.array right)
  | set {left right : List JsValue} (members : List.Forall₂ (SameValue R) left right) :
      SameNode (.set left) (.set right)
  | map {left right : List (JsString × JsValue)}
      (entries : List.Forall₂ (SameEntry R) left right) : SameNode (.map left) (.map right)
  | record {left right : List (JsString × JsValue)}
      (entries : List.Forall₂ (SameEntry R) left right) : SameNode (.record left) (.record right)

end Shape

/-- The objects of two memories correspond: they show the same, and one is held within itself
exactly where the other is. -/
structure SameShape (heap other : Heap) (R : Ref → Ref → Prop) : Prop where
  nodes : ∀ left right, R left right → SameNode R (heap left) (other right)
  cycles : ∀ {outer outer' inner inner'}, R outer outer' → R inner inner' →
    Reaches heap outer inner → (outer = inner ↔ outer' = inner')

/-! ### Loops over what corresponds -/

section Loops

variable {next next' : JsValue → Except Stopped Output}

private theorem mapM_congr {left right : List JsValue}
    (same : List.Forall₂ (fun l r => next l = next' r) left right) :
    left.mapM next = right.mapM next' := by
  induction same with
  | nil => rfl
  | cons first _ inductionHypothesis =>
      rw [List.mapM_cons, List.mapM_cons, first, inductionHypothesis]

private theorem redactItems_congr {left right : List JsValue}
    (same : List.Forall₂ (fun l r => next l = next' r) left right) :
    redactItems next left = redactItems next' right := by
  unfold redactItems
  rw [mapM_congr (List.forall₂_take MAX_ENTRIES same), same.length_eq]

/-- Entries under one key with one value, unless the key is denied, give one record. -/
private theorem redactEntries_congr {left right : List (JsString × JsValue)}
    (same : List.Forall₂
      (fun l r => l.1 = r.1 ∧ (isDeniedKey l.1 = true ∨ next l.2 = next' r.2)) left right) :
    redactEntries next left = redactEntries next' right := by
  unfold redactEntries
  generalize Output.record .undefined [] = start
  induction same generalizing start with
  | nil => rfl
  | @cons l r _ _ first _ inductionHypothesis =>
      have step : redactEntry next start l = redactEntry next' start r := by
        unfold redactEntry
        rw [← first.1]
        rcases first.2 with denied | agrees
        · rw [if_pos denied, if_pos denied]
        · rw [agrees]
      rw [List.foldlM_cons, List.foldlM_cons, step]
      cases redactEntry next' start r with
      | error stopped => rfl
      | ok out => exact inductionHypothesis out

end Loops

/-! ### Two walks -/

section Walks

variable {heap other : Heap} {R : Ref → Ref → Prop}

/-- The objects being visited correspond, and each holds the value that is walked next. -/
structure Along (heap : Heap) (R : Ref → Ref → Prop) (path path' : List Ref) (value : JsValue) :
    Prop where
  pairs : List.Forall₂ R path path'
  holds : ∀ outer ∈ path, ∀ ref, value = .object ref → Reaches heap outer ref

theorem contains_congr (shape : SameShape heap other R) {path path' : List Ref} {ref ref' : Ref}
    (along : Along heap R path path' (.object ref)) (corresponds : R ref ref') :
    path.contains ref = path'.contains ref' := by
  obtain ⟨pairs, holds⟩ := along
  induction pairs with
  | nil => rfl
  | @cons outer outer' rest rest' pair _ inductionHypothesis =>
      have later := inductionHypothesis fun deeper inside =>
        holds deeper (List.mem_cons_of_mem _ inside)
      have here := shape.cycles pair corresponds (holds outer List.mem_cons_self ref rfl)
      rw [List.contains_cons, List.contains_cons, later]
      congr 1
      rw [Bool.eq_iff_iff, beq_iff_eq, beq_iff_eq, eq_comm, here, eq_comm]

/-- Going into an object puts it on the path. -/
theorem Along.into {path path' : List Ref} {ref ref' : Ref} {value : JsValue}
    (along : Along heap R path path' (.object ref)) (corresponds : R ref ref')
    (inside : value ∈ (heap ref).shown) : Along heap R (ref :: path) (ref' :: path') value := by
  refine ⟨.cons corresponds along.pairs, ?_⟩
  intro outer member inner same
  subst same
  have last : Holds heap ref inner := inside
  cases List.mem_cons.mp member with
  | inl here =>
      subst here
      exact .single last
  | inr earlier => exact (along.holds outer earlier ref rfl).tail last

/-- Going through an error puts nothing on the path. -/
theorem Along.through {path path' : List Ref} {ref : Ref} {value : JsValue}
    (along : Along heap R path path' (.object ref)) (inside : value ∈ (heap ref).shown) :
    Along heap R path path' value := by
  refine ⟨along.pairs, ?_⟩
  intro outer member inner same
  subst same
  exact (along.holds outer member ref rfl).tail inside

/-- What two walks agree on with so much fuel. -/
structure WalksAgree (heap other : Heap) (R : Ref → Ref → Prop) (fuel : Nat) : Prop where
  values : ∀ {path path' depth value value'}, Along heap R path path' value →
    SameValue R value value' →
    walkValue heap fuel path depth value = walkValue other fuel path' depth value'
  errors : ∀ {path path' depth value value'}, Along heap R path path' value →
    SameValue R value value' →
    walkError heap fuel path depth value = walkError other fuel path' depth value'

variable {fuel depth : Nat} {path path' : List Ref} {ref ref' : Ref}

private theorem items_agree (agree : WalksAgree heap other R fuel)
    (along : Along heap R path path' (.object ref)) (corresponds : R ref ref')
    {left right : List JsValue} (same : List.Forall₂ (SameValue R) left right)
    (shown : ∀ value ∈ left, value ∈ (heap ref).shown) :
    List.Forall₂ (fun l r => walkValue heap fuel (ref :: path) (depth + 1) l =
      walkValue other fuel (ref' :: path') (depth + 1) r) left right := by
  have both := List.forall₂_and_left left right |>.mpr ⟨shown, same⟩
  exact both.imp fun l r pair => agree.values (along.into corresponds pair.1) pair.2

private theorem entries_agree (agree : WalksAgree heap other R fuel)
    (along : Along heap R path path' (.object ref)) (corresponds : R ref ref')
    {left right : List (JsString × JsValue)} (same : List.Forall₂ (SameEntry R) left right)
    (shown : ∀ entry ∈ left, isDeniedKey entry.1 = false → entry.2 ∈ (heap ref).shown) :
    List.Forall₂ (fun l r => l.1 = r.1 ∧ (isDeniedKey l.1 = true ∨
      walkValue heap fuel (ref :: path) (depth + 1) l.2 =
        walkValue other fuel (ref' :: path') (depth + 1) r.2)) left right := by
  have both := List.forall₂_and_left left right |>.mpr ⟨shown, same⟩
  refine both.imp fun l r pair => ⟨pair.2.1, ?_⟩
  cases denied : isDeniedKey l.1 with
  | true => exact .inl rfl
  | false =>
      have value : SameValue R l.2 r.2 := by
        rcases pair.2.2 with impossible | value
        · rw [denied] at impossible
          cases impossible
        · exact value
      exact .inr (agree.values (along.into corresponds (pair.1 denied)) value)

private theorem serialiseFields_agree (agree : WalksAgree heap other R fuel)
    (along : Along heap R path path' (.object ref)) {left right : JsError}
    (here : heap ref = .error left) (name : left.name = right.name)
    (fields : allowedFields left = allowedFields right)
    (frames : framesField left.stack = framesField right.stack)
    (cause : SameValue R left.cause right.cause) :
    serialiseFields (walkError heap fuel path (depth + 1)) depth left =
      serialiseFields (walkError other fuel path' (depth + 1)) depth right := by
  have inside : left.cause ∈ (heap ref).shown := by
    rw [here]
    exact List.mem_singleton_self _
  have sameCause : walkError heap fuel path (depth + 1) left.cause =
      walkError other fuel path' (depth + 1) right.cause :=
    agree.errors (along.through inside) cause
  unfold serialiseFields
  simp only [name, fields, frames, sameCause, ne_eq, cause.undefined_iff]

private theorem mem_allowed {entries : List (JsString × JsValue)} {entry : JsString × JsValue}
    (inside : entry ∈ entries) (allowed : isDeniedKey entry.1 = false) :
    entry.2 ∈ (entries.filter fun entry => !isDeniedKey entry.1).map Prod.snd :=
  List.mem_map.mpr ⟨entry, List.mem_filter.mpr ⟨inside, by rw [allowed]; rfl⟩, rfl⟩

private theorem guardedAlong_agree (shape : SameShape heap other R)
    (along : Along heap R path path' (.object ref)) (corresponds : R ref ref')
    {walk walk' : Except Stopped Output} (same : walk = walk') :
    guardedAlong path ref depth walk = guardedAlong path' ref' depth walk' := by
  unfold guardedAlong
  rw [contains_congr shape along corresponds, same]

/-- One object more: its entries agree because the walks with less fuel do. -/
private theorem object_agrees (shape : SameShape heap other R)
    (agree : WalksAgree heap other R fuel) (along : Along heap R path path' (.object ref))
    (corresponds : R ref ref') :
    walkValue heap (fuel + 1) path depth (.object ref) =
      walkValue other (fuel + 1) path' depth (.object ref') := by
  have node := shape.nodes ref ref' corresponds
  rw [walkValue, walkValue]
  generalize here : heap ref = left at node ⊢
  generalize other ref' = right at node ⊢
  have shown : ∀ value ∈ left.shown, value ∈ (heap ref).shown := by
    rw [here]
    exact fun _ => id
  cases node with
  | date time => cases time <;> rfl
  | binary => rfl
  | error name fields frames cause =>
      exact guardedAlong_agree shape along corresponds
        (serialiseFields_agree agree along here name fields frames cause)
  | array items =>
      exact guardedAlong_agree shape along corresponds
        (redactItems_congr (items_agree agree along corresponds items shown))
  | set members =>
      have taken := List.forall₂_take MAX_ENTRIES members
      exact guardedAlong_agree shape along corresponds
        (redactItems_congr (items_agree agree along corresponds taken
          fun value inside => shown value (List.mem_of_mem_take inside)))
  | map entries =>
      have taken := List.forall₂_take MAX_ENTRIES entries
      exact guardedAlong_agree shape along corresponds
        (redactEntries_congr (entries_agree agree along corresponds taken
          fun entry inside allowed =>
            shown _ (mem_allowed (List.mem_of_mem_take inside) allowed)))
  | record entries =>
      have taken := List.forall₂_take MAX_ENTRIES entries
      exact guardedAlong_agree shape along corresponds
        (redactEntries_congr (entries_agree agree along corresponds taken
          fun entry inside allowed =>
            shown _ (mem_allowed (List.mem_of_mem_take inside) allowed)))

private theorem errorOf_same (shape : SameShape heap other R) {value value' : JsValue}
    (same : SameValue R value value') :
    errorOf heap value = none ∧ errorOf other value' = none ∨
      ∃ ref ref' left right, value = .object ref ∧ value' = .object ref' ∧
        heap ref = .error left ∧ other ref' = .error right ∧
          SameNode R (.error left) (.error right) := by
  cases same with
  | scalar noObject =>
      left
      cases value with
      | object ref => exact absurd rfl (noObject ref)
      | _ => exact ⟨rfl, rfl⟩
  | @object ref ref' corresponds =>
      have node := shape.nodes ref ref' corresponds
      generalize here : heap ref = first at node
      generalize there : other ref' = second at node
      cases node with
      | error name fields frames cause =>
          exact .inr ⟨ref, ref', _, _, rfl, rfl, here, there, .error name fields frames cause⟩
      | _ =>
          left
          rw [errorOf, errorOf, here, there]
          exact ⟨rfl, rfl⟩

/-- By induction on the fuel. A scalar walks to itself, an object through its entries, which agree
where they are shown. -/
theorem walks_agree (shape : SameShape heap other R) (fuel : Nat) :
    WalksAgree heap other R fuel := by
  induction fuel with
  | zero => exact ⟨fun _ _ => rfl, fun _ _ => rfl⟩
  | succ fuel inductionHypothesis =>
      constructor
      · intro path path' depth value value' along same
        cases same with
        | scalar noObject =>
            cases value with
            | object ref => exact absurd rfl (noObject ref)
            | _ => rfl
        | object corresponds => exact object_agrees shape inductionHypothesis along corresponds
      · intro path path' depth value value' along same
        rw [walkError, walkError]
        rcases errorOf_same shape same with
          ⟨noError, noError'⟩ | ⟨ref, ref', left, right, rfl, rfl, here, there, node⟩
        · rw [noError, noError']
          exact inductionHypothesis.values along same
        · rw [errorOf, errorOf, here, there]
          cases node with
          | error name fields frames cause =>
              exact serialiseFields_agree inductionHypothesis along here name fields frames cause

end Walks

/-! ### Two records -/

/-- Two records, each in a memory of its own, that have one shape and differ only in values under
denied keys are redacted to the same: the walk of either ends, and with the same output, which more
fuel does not change. -/
theorem redactRecord_noninterference {heap other : Heap} {R : Ref → Ref → Prop}
    (shape : SameShape heap other R) {left right : List (JsString × JsValue)}
    (same : List.Forall₂ (SameEntry R) left right) {fuel : Nat} (enough : enoughFuel 1 ≤ fuel) :
    redactRecord heap fuel left ≠ .error .unfinished ∧
      redactRecord heap fuel left = redactRecord other fuel right ∧
      redactRecord heap fuel left = redactRecord heap (enoughFuel 1) left := by
  refine ⟨redactRecord_finishes heap enough left, ?_, redactRecord_stable heap enough left⟩
  rw [redactRecord_eq, redactRecord_eq]
  apply redactEntries_congr
  refine same.imp fun l r pair => ⟨pair.1, pair.2.imp_right fun value => ?_⟩
  have start : Along heap R [] [] l.2 := ⟨.nil, fun _ inside => nomatch inside⟩
  exact (walks_agree shape fuel).values start value

/-- A memory of one request that holds itself, with a token in it. -/
def requestHeap (token : JsString) : Heap := fun _ =>
  .record [(js "token", .string token), (js "self", .object 0)]

theorem redactRecord_noninterference_example :
    redactRecord (requestHeap (js "abc")) 15
        [(js "password", .string (js "x")), (js "request", .object 0)] =
      redactRecord (requestHeap (js "xyz")) 15
        [(js "password", .null), (js "request", .object 0)] := by
  have denied : isDeniedKey (js "token") = true := by decide +kernel
  have password : isDeniedKey (js "password") = true := by decide +kernel
  have shape : SameShape (requestHeap (js "abc")) (requestHeap (js "xyz"))
      (fun left right => left = 0 ∧ right = 0) := by
    constructor
    · intro left right _
      exact .record (.cons ⟨rfl, .inl denied⟩ (.cons ⟨rfl, .inr (.object ⟨rfl, rfl⟩)⟩ .nil))
    · rintro outer outer' inner inner' ⟨rfl, rfl⟩ ⟨rfl, rfl⟩ _
      exact Iff.rfl
  have same : List.Forall₂ (SameEntry fun left right => left = 0 ∧ right = 0)
      [(js "password", .string (js "x")), (js "request", .object 0)]
      [(js "password", .null), (js "request", .object 0)] :=
    .cons ⟨rfl, .inl password⟩ (.cons ⟨rfl, .inr (.object ⟨rfl, rfl⟩)⟩ .nil)
  exact (redactRecord_noninterference shape same (by decide)).2.1

end Assaybank.Observability
