import Assaybank.Auth.Envelope
import Assaybank.Contracts.Question
import Assaybank.Domain.Deadline

/-!
Owns the life of an attempt token (`apps/api/src/credentials/attempt-token.ts`), as a redemption
mints it (`packages/auth/src/attempt-token.ts`), beside the deadline of the sitting it is for.

Contract: a token outlives its sitting exactly when the time a candidate takes to start and the
seconds an accommodation adds fit the two windows together (`attemptToken_outlives_iff`). The cap
on a token's life never binds within the durations of an assessment.
-/

namespace Assaybank.Credentials

open Assaybank.Runtime Assaybank.Library Assaybank.Contracts Assaybank.Domain Assaybank.Auth

/-- `duration_seconds` of an assessment. -/
def DurationSecondsSchema : Schema Int := safeInteger [minInt 60, maxInt (8 * 60 * 60)]

def ATTEMPT_TOKEN_START_WINDOW_SECONDS : Int := 30 * 60

def ATTEMPT_TOKEN_TAIL_SECONDS : Int := 15 * 60

def MAX_ATTEMPT_TOKEN_LIFE_SECONDS : Int := 12 * 60 * 60

/-- The life of a token minted for a sitting of this many seconds. -/
def attemptTokenLifeSeconds (durationSeconds : Int) : Int :=
  let bounded := if 0 < durationSeconds then durationSeconds else 0
  min (ATTEMPT_TOKEN_START_WINDOW_SECONDS + bounded + ATTEMPT_TOKEN_TAIL_SECONDS)
    MAX_ATTEMPT_TOKEN_LIFE_SECONDS

/-- What a token is minted for. -/
structure AttemptTokenSubject where
  attemptId : JsString
  orgId : JsString
  durationSeconds : Int

structure IssuedAttemptToken where
  token : JsString
  expiresAt : EpochMillis

def ATTEMPT_TOKEN_PREFIX : JsString := js "abat1"

/-- Mints a token for one attempt of one organisation, until an instant. -/
def issueAttemptToken (mac : Mac) (attemptId orgId : JsString) (expiresAt : EpochMillis)
    (secret : JsString) : JsString :=
  sealEnvelope mac ATTEMPT_TOKEN_PREFIX
    (.object [(js "v", .number 1), (js "p", .string (js "attempt")),
      (js "aid", .string attemptId), (js "oid", .string orgId),
      (js "exp", .number (.ofInt expiresAt))]) secret

/-- Mints a token at an instant of the server's clock. -/
def mintAttemptToken (mac : Mac) (subject : AttemptTokenSubject) (signingKey : JsString)
    (now : EpochMillis) : IssuedAttemptToken :=
  let expiresAt := now + attemptTokenLifeSeconds subject.durationSeconds * 1000
  ⟨issueAttemptToken mac subject.attemptId subject.orgId expiresAt signingKey, expiresAt⟩

/-! ### The token beside the sitting -/

private theorem duration_bounds {duration : Int}
    (admitted : DurationSecondsSchema.Accepts duration) : 60 ≤ duration ∧ duration ≤ 8 * 60 * 60 := by
  rw [DurationSecondsSchema, safeInteger, Schema.integer, Schema.accepts_scalar] at admitted
  simp only [minInt, maxInt, List.mem_cons, List.not_mem_nil, or_false, forall_eq_or_imp, forall_eq,
    decide_eq_true_eq] at admitted
  exact admitted.2.2

/-- Within the durations of an assessment the cap does not bind. -/
theorem attemptTokenLifeSeconds_eq {duration : Int}
    (admitted : DurationSecondsSchema.Accepts duration) :
    attemptTokenLifeSeconds duration =
      duration + (ATTEMPT_TOKEN_START_WINDOW_SECONDS + ATTEMPT_TOKEN_TAIL_SECONDS) := by
  obtain ⟨least, most⟩ := duration_bounds admitted
  unfold attemptTokenLifeSeconds ATTEMPT_TOKEN_START_WINDOW_SECONDS ATTEMPT_TOKEN_TAIL_SECONDS
    MAX_ATTEMPT_TOKEN_LIFE_SECONDS
  simp only
  rw [if_pos (by omega)]
  omega

/-- The deadline of a sitting of an assessment. -/
private theorem deadline_eq {startedAt deadline : EpochMillis} {duration : Int} {pct : JsNumber}
    {share : ℚ} (admitted : DurationSecondsSchema.Accepts duration)
    (percentage : pct.value = .finite share)
    (computed : computeDeadline (some startedAt) (.finite (.ofInt duration)) pct = .ok deadline) :
    deadline = startedAt + totalSeconds duration share * 1000 := by
  obtain ⟨start, whole, same, started, positive, _, finite, _, rfl⟩ :=
    computeDeadline_eq_ok.mp computed
  cases started
  obtain ⟨least, most⟩ := duration_bounds admitted
  rw [positiveInteger?_ofInt (by omega) (by omega)] at positive
  cases positive
  rw [nonNegative?, percentage] at finite
  simp only at finite
  split at finite
  · cases finite
    rfl
  · cases finite

/-- A signature of no digits, for runs on fixed inputs: no instant depends on it. -/
def blankMac : Mac := ⟨fun _ _ => [], fun _ _ => rfl⟩

/-- The whole seconds from a start to the expiry of a token minted for so long a sitting. -/
def secondsLeft (durationSeconds : Int) (redeemedAt startedAt : EpochMillis) : Int :=
  durationSeconds + (ATTEMPT_TOKEN_START_WINDOW_SECONDS + ATTEMPT_TOKEN_TAIL_SECONDS) +
    (redeemedAt - startedAt) / 1000

private theorem instants_le_iff {start redeemed seconds life : Int} :
    start + seconds * 1000 ≤ redeemed + life * 1000 ↔ seconds ≤ life + (redeemed - start) / 1000 := by
  omega

private theorem wait_bounds {start redeemed : Int} (afterRedemption : redeemed ≤ start)
    (inWindow : start ≤ redeemed + ATTEMPT_TOKEN_START_WINDOW_SECONDS * 1000) :
    (redeemed - start) / 1000 ≤ 0 ∧
      -ATTEMPT_TOKEN_START_WINDOW_SECONDS ≤ (redeemed - start) / 1000 := by
  unfold ATTEMPT_TOKEN_START_WINDOW_SECONDS at inWindow ⊢
  omega

section Outlives

variable (mac : Mac) (subject : AttemptTokenSubject) (key : JsString)

/-- For a start in the window, a token outlives the sitting exactly when what is left of it at the
start is the seconds of the sitting. -/
private theorem outlives_iff_le {redeemedAt startedAt deadline : EpochMillis} {pct : JsNumber}
    {share : ℚ} (admitted : DurationSecondsSchema.Accepts subject.durationSeconds)
    (percentage : pct.value = .finite share)
    (computed : computeDeadline (some startedAt) (.finite (.ofInt subject.durationSeconds)) pct =
      .ok deadline) :
    deadline ≤ (mintAttemptToken mac subject key redeemedAt).expiresAt ↔
      totalSeconds subject.durationSeconds share ≤
        secondsLeft subject.durationSeconds redeemedAt startedAt := by
  rw [deadline_eq admitted percentage computed, mintAttemptToken,
    attemptTokenLifeSeconds_eq admitted, secondsLeft]
  exact instants_le_iff

/-- What is left at a start in the window is more than the tail, and far from the numbers a double
does not hold. -/
private theorem secondsLeft_bounds {redeemedAt startedAt : EpochMillis}
    (admitted : DurationSecondsSchema.Accepts subject.durationSeconds)
    (afterRedemption : redeemedAt ≤ startedAt)
    (inWindow : startedAt ≤ redeemedAt + ATTEMPT_TOKEN_START_WINDOW_SECONDS * 1000) :
    0 < secondsLeft subject.durationSeconds redeemedAt startedAt ∧
      100 * secondsLeft subject.durationSeconds redeemedAt startedAt < 2 ^ 52 := by
  obtain ⟨least, most⟩ := duration_bounds admitted
  have wait := wait_bounds afterRedemption inWindow
  unfold secondsLeft ATTEMPT_TOKEN_START_WINDOW_SECONDS ATTEMPT_TOKEN_TAIL_SECONDS at *
  omega

/-- For a sitting started in the window, the token minted at the redemption lasts to the deadline
exactly when the duration times a hundred and the extra percent, the sum as a double, exceeds a
hundred times the seconds left of the token by half a last digit at most. -/
theorem attemptToken_outlives_iff {redeemedAt startedAt deadline : EpochMillis} {pct : JsNumber}
    {share : ℚ} (admitted : DurationSecondsSchema.Accepts subject.durationSeconds)
    (afterRedemption : redeemedAt ≤ startedAt)
    (inWindow : startedAt ≤ redeemedAt + ATTEMPT_TOKEN_START_WINDOW_SECONDS * 1000)
    (percentage : pct.value = .finite share)
    (computed : computeDeadline (some startedAt) (.finite (.ofInt subject.durationSeconds)) pct =
      .ok deadline) :
    deadline ≤ (mintAttemptToken mac subject key redeemedAt).expiresAt ↔
      subject.durationSeconds * Binary64.nearest (100 + share) ≤
        (100 * secondsLeft subject.durationSeconds redeemedAt startedAt : Int) +
          Binary64.unit
            (100 * secondsLeft subject.durationSeconds redeemedAt startedAt : Int) / 2 := by
  obtain ⟨positive, small⟩ := secondsLeft_bounds subject admitted afterRedemption inWindow
  rw [outlives_iff_le mac subject key admitted percentage computed]
  obtain ⟨left, whole⟩ := Int.eq_ofNat_of_zero_le positive.le
  rw [whole] at positive small ⊢
  have some : 0 < left := by omega
  have rounded := totalSeconds_le_iff subject.durationSeconds share some (by omega)
  exact_mod_cast rounded

/-- With a whole percentage, exactly when the duration and its share fit the seconds left. -/
theorem attemptToken_outlives_whole_iff {redeemedAt startedAt deadline : EpochMillis} {pct : ℕ}
    (admitted : DurationSecondsSchema.Accepts subject.durationSeconds)
    (afterRedemption : redeemedAt ≤ startedAt)
    (inWindow : startedAt ≤ redeemedAt + ATTEMPT_TOKEN_START_WINDOW_SECONDS * 1000)
    (most : pct ≤ 1000)
    (computed : computeDeadline (some startedAt) (.finite (.ofInt subject.durationSeconds))
      (.finite (.ofInt pct)) = .ok deadline) :
    deadline ≤ (mintAttemptToken mac subject key redeemedAt).expiresAt ↔
      subject.durationSeconds * (100 + pct) ≤
        100 * secondsLeft subject.durationSeconds redeemedAt startedAt := by
  have percentage : (JsNumber.finite (.ofInt pct)).value = .finite pct := by
    rw [JsNumber.value, Decimal.toRat_ofInt, JsDouble.ofRat_intCast]
    · rfl
    · rw [Nat.abs_cast]
      omega
  obtain ⟨positive, small⟩ := secondsLeft_bounds subject admitted afterRedemption inWindow
  rw [outlives_iff_le mac subject key admitted percentage computed]
  obtain ⟨left, whole⟩ := Int.eq_ofNat_of_zero_le positive.le
  rw [whole] at positive small ⊢
  exact totalSeconds_whole_le_iff subject.durationSeconds most (by omega) (by omega)

end Outlives

/-- Fifty minutes with 36.8 % more, started 1596 seconds after the redemption: the product is
rounded up to a second more than the token has left. -/
theorem attemptToken_outlives_example :
    (5701000 : EpochMillis) ≤
        (mintAttemptToken blankMac ⟨js "a", js "o", 3000⟩ (js "k") 0).expiresAt ↔
      (3000 : Int) * Binary64.nearest (100 + Binary64.nearest (368 / 10)) ≤
        (100 * secondsLeft 3000 0 1596000 : Int) +
          Binary64.unit (100 * secondsLeft 3000 0 1596000 : Int) / 2 := by
  have computed : computeDeadline (some 1596000) (.finite (.ofInt 3000))
      (.finite (.ofScaled 368 (-1))) = .ok 5701000 := by decide +kernel
  have percentage : (JsNumber.finite (.ofScaled 368 (-1))).value =
      .finite (Binary64.nearest (368 / 10)) := by decide +kernel
  have admitted : DurationSecondsSchema.Accepts 3000 := by
    rw [DurationSecondsSchema, safeInteger, Schema.integer, Schema.accepts_scalar]
    decide
  exact attemptToken_outlives_iff blankMac ⟨js "a", js "o", 3000⟩ (js "k") admitted (by decide)
    (by decide) percentage computed

/-- Eight hours with a quarter more, started at once: the token ends before the deadline. -/
theorem attemptToken_expires_in_sitting :
    DurationSecondsSchema.Accepts 28800 ∧
      computeDeadline (some 0) (.finite (.ofInt 28800)) (.finite (.ofInt 25)) = .ok 36000000 ∧
      ¬ 36000000 ≤ (mintAttemptToken blankMac ⟨js "a", js "o", 28800⟩ (js "k") 0).expiresAt := by
  refine ⟨?_, ?_, ?_⟩
  · rw [DurationSecondsSchema, safeInteger, Schema.integer, Schema.accepts_scalar]
    decide
  · decide +kernel
  · decide

/-- Whatever the start within the window, a token outlives the sitting exactly when it does from
the last start of the window. -/
theorem attemptToken_outlives_every_start_iff (mac : Mac) (subject : AttemptTokenSubject)
    (key : JsString) (redeemedAt : EpochMillis) {pct : JsNumber} {share : ℚ}
    (admitted : DurationSecondsSchema.Accepts subject.durationSeconds)
    (percentage : pct.value = .finite share) (least : 0 ≤ share)
    (most : share ≤ MAX_EXTRA_TIME_PCT) :
    (∀ startedAt deadline, redeemedAt ≤ startedAt →
      startedAt ≤ redeemedAt + ATTEMPT_TOKEN_START_WINDOW_SECONDS * 1000 →
      computeDeadline (some startedAt) (.finite (.ofInt subject.durationSeconds)) pct =
        .ok deadline → deadline ≤ (mintAttemptToken mac subject key redeemedAt).expiresAt) ↔
      totalSeconds subject.durationSeconds share ≤
        subject.durationSeconds + ATTEMPT_TOKEN_TAIL_SECONDS := by
  obtain ⟨shortest, longest⟩ := duration_bounds admitted
  constructor
  · intro always
    let startedAt := redeemedAt + ATTEMPT_TOKEN_START_WINDOW_SECONDS * 1000
    have computed : computeDeadline (some startedAt) (.finite (.ofInt subject.durationSeconds))
        pct = .ok (startedAt + totalSeconds subject.durationSeconds share * 1000) :=
      computeDeadline_eq_ok.mpr ⟨startedAt, subject.durationSeconds, share, rfl,
        positiveInteger?_ofInt (by omega) (by omega), by unfold MAX_DURATION_SECONDS; omega,
        by rw [nonNegative?, percentage]; exact if_pos least, most, rfl⟩
    have lasts := (outlives_iff_le mac subject key admitted percentage computed).mp
      (always startedAt _ (by simp [startedAt, ATTEMPT_TOKEN_START_WINDOW_SECONDS]) le_rfl computed)
    simp only [secondsLeft, startedAt] at lasts
    omega
  · intro fits startedAt deadline afterRedemption inWindow computed
    have wait := wait_bounds afterRedemption inWindow
    rw [outlives_iff_le mac subject key admitted percentage computed, secondsLeft]
    omega

end Assaybank.Credentials
