import Assaybank.Library.Json

/-!
Owns business keys, the job ids made from them, and the keys of their records
(`apps/worker/src/idempotency.ts`).

Contract: a job id has no colon, and two keys never share one, nor a record (`toJobId_colon`,
`toJobId_injective`, `storageKey_injective`).
-/

namespace Assaybank.Jobs

open Assaybank.Runtime Assaybank.Library

def MAX_IDEMPOTENCY_KEY_CHARS : Nat := 512

/-- A key as it is, or the text of the `IdempotencyKeyError`. -/
def assertBusinessKey (key : JsString) : Except JsString JsString :=
  if key.length = 0 then .error (js "an idempotency key must be a non-empty string")
  else if key.length > MAX_IDEMPOTENCY_KEY_CHARS then
    .error (js "an idempotency key must be at most " ++ natText MAX_IDEMPOTENCY_KEY_CHARS ++
      js " characters; this one is " ++ natText key.length ++
      js ". A key that long is carrying content, not an identity.")
  else if key.any isSpace then
    .error (js "an idempotency key must not contain whitespace: " ++ jsonString key)
  else if (splitOn (unit ':') key).any fun segment =>
      segment == js "undefined" || segment == js "null" then
    .error (js "the idempotency key " ++ jsonString key ++
      js " has a segment that is \"undefined\" or \"null\", which means an identifier was missing when it was built. Every job with that missing identifier would share one record.")
  else .ok key

/-- A key with its percent signs and colons escaped. -/
def escapeKey (key : JsString) : JsString :=
  replaceAll (js ":") (js "%3A") (replaceAll (js "%") (js "%25") key)

/-- The job id of a business key. -/
def toJobId (key : JsString) : Except JsString JsString := (assertBusinessKey key).map escapeKey

/-! ### Escaping -/

/-- `replaceAll` of one unit, unit by unit. -/
theorem replaceAll_unit (needle : CodeUnit) (replacement s : JsString) :
    replaceAll [needle] replacement s =
      s.flatMap fun c => if c = needle then replacement else [c] := by
  induction s with
  | nil => rw [replaceAll, List.flatMap_nil]
  | cons c rest inductionHypothesis =>
      rw [replaceAll, List.flatMap_cons]
      by_cases same : c = needle
      · rw [if_pos ⟨List.cons_ne_nil _ _, by simp [same]⟩, if_pos same]
        exact congrArg _ inductionHypothesis
      · rw [if_neg (by simp [Ne.symm same]), if_neg same, inductionHypothesis]
        rfl

/-- What a unit of a key is written as. -/
def escapeUnit (c : CodeUnit) : JsString :=
  if c = unit '%' then js "%25" else if c = unit ':' then js "%3A" else [c]

theorem escapeKey_eq (key : JsString) : escapeKey key = key.flatMap escapeUnit := by
  have percent : js "%" = [unit '%'] := by decide
  have colon : js ":" = [unit ':'] := by decide
  have apart : unit '%' ≠ unit ':' := by decide
  unfold escapeKey
  rw [percent, colon, replaceAll_unit, replaceAll_unit, List.flatMap_assoc]
  apply List.flatMap_congr
  intro c _
  unfold escapeUnit
  by_cases isPercent : c = unit '%'
  · rw [if_pos isPercent, if_pos isPercent]
    decide
  · rw [if_neg isPercent, if_neg isPercent, List.flatMap_singleton]

/-- A job id has no colon. -/
theorem toJobId_colon {key jobId : JsString} (made : toJobId key = .ok jobId) :
    unit ':' ∉ jobId := by
  cases accepted : assertBusinessKey key with
  | error refusal =>
      rw [toJobId, accepted] at made
      cases made
  | ok same =>
      rw [toJobId, accepted] at made
      cases made
      rw [escapeKey_eq]
      intro inside
      obtain ⟨c, _, written⟩ := List.mem_flatMap.mp inside
      unfold escapeUnit at written
      split at written
      · exact absurd written (by decide)
      · split at written
        · exact absurd written (by decide)
        · rename_i other
          exact other (List.mem_singleton.mp written).symm

/-- What was escaped is read back unit by unit. -/
private theorem escapeUnit_append_inj {c d : CodeUnit} {rest others : JsString}
    (same : escapeUnit c ++ rest = escapeUnit d ++ others) : c = d ∧ rest = others := by
  have percent : js "%25" = [unit '%', unit '2', unit '5'] := by decide
  have colon : js "%3A" = [unit '%', unit '3', unit 'A'] := by decide
  have apart : unit '2' ≠ unit '3' := by decide
  unfold escapeUnit at same
  rw [percent, colon] at same
  split at same <;> split at same <;> grind

theorem escapeKey_injective {key other : JsString} (same : escapeKey key = escapeKey other) :
    key = other := by
  rw [escapeKey_eq, escapeKey_eq] at same
  have written (c : CodeUnit) : escapeUnit c ≠ [] := by
    unfold escapeUnit
    split
    · decide
    · split
      · decide
      · exact List.cons_ne_nil _ _
  induction key generalizing other with
  | nil =>
      cases other with
      | nil => rfl
      | cons d others =>
          rw [List.flatMap_cons] at same
          exact absurd (List.append_eq_nil_iff.mp same.symm).1 (written d)
  | cons c rest inductionHypothesis =>
      cases other with
      | nil =>
          rw [List.flatMap_cons] at same
          exact absurd (List.append_eq_nil_iff.mp same).1 (written c)
      | cons d others =>
          rw [List.flatMap_cons, List.flatMap_cons] at same
          obtain ⟨alike, tails⟩ := escapeUnit_append_inj same
          rw [alike, inductionHypothesis tails]

/-- An accepted key is kept as it is. -/
theorem eq_of_assertBusinessKey {key accepted : JsString}
    (asserted : assertBusinessKey key = .ok accepted) : accepted = key := by
  unfold assertBusinessKey at asserted
  split at asserted
  · cases asserted
  · split at asserted
    · cases asserted
    · split at asserted
      · cases asserted
      · split at asserted
        · cases asserted
        · exact (Except.ok.inj asserted).symm

private theorem map_assertBusinessKey {key made : JsString} {write : JsString → JsString}
    (written : (assertBusinessKey key).map write = .ok made) : write key = made := by
  cases asserted : assertBusinessKey key with
  | error refusal =>
      rw [asserted] at written
      cases written
  | ok accepted =>
      rw [asserted, eq_of_assertBusinessKey asserted] at written
      exact Except.ok.inj written

/-- Two keys never share a job id. -/
theorem toJobId_injective {key other jobId : JsString} (made : toJobId key = .ok jobId)
    (alsoMade : toJobId other = .ok jobId) : key = other :=
  escapeKey_injective ((map_assertBusinessKey made).trans (map_assertBusinessKey alsoMade).symm)

/-! ### Reading a job id back -/

/-- What `escapeKey` made of a key, undone. -/
def unescapeKey : JsString → JsString
  | a :: b :: c :: rest =>
      if [a, b, c] = js "%25" then unit '%' :: unescapeKey rest
      else if [a, b, c] = js "%3A" then unit ':' :: unescapeKey rest
      else a :: unescapeKey (b :: c :: rest)
  | short => short

private theorem unescapeKey_cons {c : CodeUnit} (plain : c ≠ unit '%') (rest : JsString) :
    unescapeKey (c :: rest) = c :: unescapeKey rest := by
  have percent : js "%25" = [unit '%', unit '2', unit '5'] := by decide
  have colon : js "%3A" = [unit '%', unit '3', unit 'A'] := by decide
  match rest with
  | [] => rfl
  | [_] => rfl
  | a :: b :: after =>
      rw [unescapeKey, percent, colon, if_neg, if_neg]
      · exact fun same => plain (List.cons.inj same).1
      · exact fun same => plain (List.cons.inj same).1

private theorem unescapeKey_escapeUnit (c : CodeUnit) (rest : JsString) :
    unescapeKey (escapeUnit c ++ rest) = c :: unescapeKey rest := by
  have percent : js "%25" = [unit '%', unit '2', unit '5'] := by decide
  have colon : js "%3A" = [unit '%', unit '3', unit 'A'] := by decide
  unfold escapeUnit
  by_cases isPercent : c = unit '%'
  · rw [if_pos isPercent, isPercent, percent]
    show unescapeKey (unit '%' :: unit '2' :: unit '5' :: rest) = _
    rw [unescapeKey, percent, if_pos rfl]
  · rw [if_neg isPercent]
    by_cases isColon : c = unit ':'
    · rw [if_pos isColon, isColon, colon]
      show unescapeKey (unit '%' :: unit '3' :: unit 'A' :: rest) = _
      rw [unescapeKey, colon, if_neg (by decide), if_pos rfl]
    · rw [if_neg isColon]
      exact unescapeKey_cons isPercent rest

theorem unescapeKey_escapeKey (key : JsString) : unescapeKey (escapeKey key) = key := by
  rw [escapeKey_eq]
  induction key with
  | nil => rfl
  | cons c rest inductionHypothesis =>
      rw [List.flatMap_cons, unescapeKey_escapeUnit, inductionHypothesis]

/-- An accepted key has a job id, from which it is read back; so two accepted keys that differ
have job ids that differ, and none of them has a colon. -/
theorem toJobId_reversible :
    (∀ key, (assertBusinessKey key).isOk = true → ∃ jobId, toJobId key = .ok jobId) ∧
    (∀ key other, key ≠ other → ∀ jobId otherId, toJobId key = .ok jobId →
      toJobId other = .ok otherId → jobId ≠ otherId) ∧
    (∀ key jobId, toJobId key = .ok jobId → unit ':' ∉ jobId) ∧
    ∀ key jobId, toJobId key = .ok jobId → unescapeKey jobId = key := by
  refine ⟨?_, ?_, ?_, ?_⟩
  · intro key accepted
    cases asserted : assertBusinessKey key with
    | error refusal =>
        rw [asserted] at accepted
        cases accepted
    | ok same =>
        refine ⟨escapeKey same, ?_⟩
        rw [toJobId, asserted]
        rfl
  · intro key other different jobId otherId made alsoMade same
    exact different (toJobId_injective made (same ▸ alsoMade))
  · intro key jobId made
    exact toJobId_colon made
  · intro key jobId made
    rw [← map_assertBusinessKey made]
    exact unescapeKey_escapeKey key

/-! ### The record of a key -/

def IDEMPOTENCY_KEY_PREFIX : JsString := js "assaybank:idem:"

/-- Where the record of a business key is kept. -/
def storageKey (key : JsString) : Except JsString JsString :=
  (assertBusinessKey key).map fun accepted => IDEMPOTENCY_KEY_PREFIX ++ accepted

/-- Two keys never share a record. -/
theorem storageKey_injective {key other stored : JsString} (made : storageKey key = .ok stored)
    (alsoMade : storageKey other = .ok stored) : key = other :=
  List.append_cancel_left
    ((map_assertBusinessKey made).trans (map_assertBusinessKey alsoMade).symm)

end Assaybank.Jobs
