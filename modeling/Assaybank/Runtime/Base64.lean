import Assaybank.Runtime.Text
import Mathlib.Data.List.Basic

/-!
Owns base64url as `Buffer` writes and reads it.

Contract: bytes are read back from their text (`fromBase64Url_toBase64Url`).
-/

namespace Assaybank.Runtime

/-- Three bytes as four groups of six bits. -/
def toSextets : List Nat → List Nat
  | a :: b :: c :: rest =>
      a / 4 :: (a % 4 * 16 + b / 16) :: (b % 16 * 4 + c / 64) :: c % 64 :: toSextets rest
  | [a, b] => [a / 4, a % 4 * 16 + b / 16, b % 16 * 4]
  | [a] => [a / 4, a % 4 * 16]
  | [] => []

def ofSextets : List Nat → List Nat
  | w :: x :: y :: z :: rest =>
      (w * 4 + x / 16) :: (x % 16 * 16 + y / 4) :: (y % 4 * 64 + z) :: ofSextets rest
  | [w, x, y] => [w * 4 + x / 16, x % 16 * 16 + y / 4]
  | [w, x] => [w * 4 + x / 16]
  | _ => []

def BASE64_ALPHABET : JsString :=
  js "ABCDEFGHIJKLMNOPQRSTUVWXYZabcdefghijklmnopqrstuvwxyz0123456789+/"

def sextetUnit (sextet : Nat) : CodeUnit := BASE64_ALPHABET.getD sextet (unit '=')

/-- The value of a unit of either alphabet. A unit of neither is skipped. -/
def sextetOf (c : CodeUnit) : Option Nat :=
  if c = unit '-' then some 62 else if c = unit '_' then some 63 else BASE64_ALPHABET.idxOf? c

/-- `-` and `_` in the place of `+` and `/`. -/
def urlUnit (c : CodeUnit) : CodeUnit :=
  if c = unit '+' then unit '-' else if c = unit '/' then unit '_' else c

/-- `toString('base64url')`, which has no padding. -/
def toBase64Url (bytes : List Nat) : JsString :=
  (toSextets bytes).map fun sextet => urlUnit (sextetUnit sextet)

/-- `Buffer.from(s, 'base64url')`. -/
def fromBase64Url (s : JsString) : List Nat :=
  ofSextets ((s.takeWhile fun c => c != unit '=').filterMap sextetOf)

/-! ### Reading what was written -/

theorem toSextets_lt {bytes : List Nat} (small : ∀ byte ∈ bytes, byte < 256) :
    ∀ sextet ∈ toSextets bytes, sextet < 64 := by
  fun_induction toSextets bytes with
  | case1 a b c rest inductionHypothesis =>
      simp only [List.mem_cons, forall_eq_or_imp] at small
      obtain ⟨first, second, third, others⟩ := small
      simp only [List.mem_cons, forall_eq_or_imp]
      refine ⟨by omega, by omega, by omega, by omega, inductionHypothesis others⟩
  | case2 a b =>
      simp only [List.mem_cons, List.not_mem_nil, or_false, forall_eq_or_imp, forall_eq] at small ⊢
      omega
  | case3 a =>
      simp only [List.mem_cons, List.not_mem_nil, or_false, forall_eq_or_imp, forall_eq] at small ⊢
      omega
  | case4 => simp

theorem ofSextets_toSextets {bytes : List Nat} (small : ∀ byte ∈ bytes, byte < 256) :
    ofSextets (toSextets bytes) = bytes := by
  fun_induction toSextets bytes with
  | case1 a b c rest inductionHypothesis =>
      simp only [List.mem_cons, forall_eq_or_imp] at small
      obtain ⟨first, second, third, others⟩ := small
      rw [ofSextets, inductionHypothesis others]
      congr 1
      · omega
      · congr 1
        · omega
        · congr 1
          omega
  | case2 a b =>
      simp only [List.mem_cons, List.not_mem_nil, or_false, forall_eq_or_imp, forall_eq] at small
      simp only [ofSextets, List.cons.injEq, and_true]
      omega
  | case3 a =>
      simp only [List.mem_cons, List.not_mem_nil, or_false, forall_eq] at small
      simp only [ofSextets, List.cons.injEq, and_true]
      omega
  | case4 => rfl

private theorem sextetOf_urlUnit : ∀ sextet < 64,
    sextetOf (urlUnit (sextetUnit sextet)) = some sextet ∧
      urlUnit (sextetUnit sextet) ≠ unit '=' := by
  decide +kernel

/-- Bytes are read back from their base64url text. -/
theorem fromBase64Url_toBase64Url {bytes : List Nat} (small : ∀ byte ∈ bytes, byte < 256) :
    fromBase64Url (toBase64Url bytes) = bytes := by
  have written : ∀ sextets : List Nat, (∀ sextet ∈ sextets, sextet < 64) →
      ((sextets.map fun sextet => urlUnit (sextetUnit sextet)).takeWhile
        fun c => c != unit '=').filterMap sextetOf = sextets := by
    intro sextets few
    induction sextets with
    | nil => rfl
    | cons sextet rest inductionHypothesis =>
        obtain ⟨value, other⟩ := sextetOf_urlUnit sextet (few sextet List.mem_cons_self)
        have later := inductionHypothesis fun next inside => few next (List.mem_cons_of_mem _ inside)
        rw [List.map_cons, List.takeWhile_cons_of_pos (by simpa using other),
          List.filterMap_cons_some value, later]
  rw [fromBase64Url, toBase64Url, written _ (toSextets_lt small), ofSextets_toSextets small]

end Assaybank.Runtime
