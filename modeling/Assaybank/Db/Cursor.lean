import Assaybank.Contracts.QuestionInput
import Assaybank.Library.Keyset
import Assaybank.Runtime.Utf8
import Assaybank.Runtime.Base64
import Mathlib.Data.Set.Finite.List
import Mathlib.Data.Int.Interval

/-!
Owns the keyset cursor (`packages/db/src/cursor.ts`), and the columns it is made of: an instant as
the database stores it, and the identifier of a row.

Contract: a cursor is decoded to the timestamp and the identifier it was encoded from
(`decodeKeysetCursor_encodeKeysetCursor`).
-/

namespace Assaybank.Db

open Assaybank.Runtime Assaybank.Contracts Assaybank.Library.Keyset

/-! ### Columns -/

/-- `^[0-9a-fA-F]{8}-[0-9a-fA-F]{4}-[0-9a-fA-F]{4}-[0-9a-fA-F]{4}-[0-9a-fA-F]{12}$` -/
def UUID (s : JsString) : Bool :=
  match splitOn (unit '-') s with
  | [first, second, third, fourth, fifth] =>
      [first, second, third, fourth, fifth].all (fun group => group.all isHexDigit) &&
        [first.length, second.length, third.length, fourth.length, fifth.length] == [8, 4, 4, 4, 12]
  | _ => false

/-- A `uuid`, as the database writes it. -/
structure RowId where
  text : Uuid
  canonical : UUID text = true ∧ text.map lowerAscii = text
deriving DecidableEq

/-- `::uuid` -/
def readUuid (s : JsString) : Option RowId :=
  if canonical : UUID (s.map lowerAscii) = true ∧
      (s.map lowerAscii).map lowerAscii = s.map lowerAscii then
    some ⟨s.map lowerAscii, canonical⟩
  else none

/-- A `timestamptz`: microseconds from the epoch, between 4714 BC and 294276 AD. -/
structure Timestamp where
  micros : Int
  inRange : -210866803200000000 ≤ micros ∧ micros < 9224318016000000000
deriving DecidableEq

instance : LT Timestamp := ⟨fun left right => left.micros < right.micros⟩

/-- The sixteen bytes in order, which their text in lower case is in as well. -/
instance : LT RowId := ⟨fun left right => left.text < right.text⟩

instance : DecidableLT Timestamp :=
  fun left right => inferInstanceAs (Decidable (left.micros < right.micros))

instance : DecidableLT RowId :=
  fun left right => inferInstanceAs (Decidable (left.text < right.text))

instance : IsStrictTotalOrder Timestamp (· < ·) where
  irrefl instant := Int.lt_irrefl instant.micros
  trans _ _ _ := Int.lt_trans
  trichotomous left right notForth notBack := by
    have same : left.micros = right.micros :=
      Int.le_antisymm (Int.not_lt.mp notBack) (Int.not_lt.mp notForth)
    cases left
    cases same
    rfl

instance : IsStrictTotalOrder JsString (· < ·) where
  irrefl s := List.lt_irrefl s
  trans _ _ _ := List.lt_trans
  trichotomous _ _ notForth notBack :=
    List.le_antisymm (List.not_lt.mp notBack) (List.not_lt.mp notForth)

theorem RowId.ext_text {left right : RowId} (same : left.text = right.text) : left = right := by
  cases left
  cases same
  rfl

instance : IsStrictTotalOrder RowId (· < ·) where
  irrefl id := List.lt_irrefl id.text
  trans _ _ _ := List.lt_trans
  trichotomous left right notForth notBack :=
    RowId.ext_text (Std.Trichotomous.trichotomous left.text right.text notForth notBack)

/-! ### The cursor -/

/-- The last row of a page: its `created_at` as the database writes it, and its identifier. -/
structure Keyset where
  createdAt : JsString
  id : JsString
deriving DecidableEq

def SEPARATOR : JsString := js "|"

def MAX_PAYLOAD_LENGTH : Nat := 128

/-- Whether a text is a template with a digit in the place of each `d`. -/
def fits (template s : JsString) : Bool :=
  template.length == s.length &&
    (template.zip s).all fun (kind, c) => if kind = unit 'd' then isDigit c else c == kind

/-- What follows `(?:\.\d{1,6})?`. -/
def afterFraction (s : JsString) : JsString :=
  match s with
  | [] => []
  | c :: rest =>
      if c = unit '.' ∧ 1 ≤ (rest.takeWhile isDigit).length ∧ (rest.takeWhile isDigit).length ≤ 6
      then rest.dropWhile isDigit else s

/-- `^\d{4}-\d{2}-\d{2} \d{2}:\d{2}:\d{2}(?:\.\d{1,6})?[+-]\d{2}(?::\d{2})?$` -/
def TIMESTAMP (s : JsString) : Bool :=
  fits (js "dddd-dd-dd dd:dd:dd") (s.take 19) &&
    [js "+dd", js "-dd", js "+dd:dd", js "-dd:dd"].any fun offset =>
      fits offset (afterFraction (s.drop 19))

def encodeKeysetCursor (keyset : Keyset) : JsString :=
  toBase64Url (utf8Bytes (keyset.createdAt ++ SEPARATOR ++ keyset.id))

/-- Decodes a cursor, or nothing when it is not one that was handed out. -/
def decodeKeysetCursor (cursor : JsString) : Option Keyset :=
  let decoded := utf8Text (fromBase64Url cursor)
  if decoded.length = 0 ∨ MAX_PAYLOAD_LENGTH < decoded.length then none
  else
    match indexOf decoded SEPARATOR 0 with
    | none => none
    | some boundary =>
        if boundary = 0 then none
        else
          let createdAt := slice decoded 0 boundary
          let id := decoded.drop (boundary + SEPARATOR.length)
          if !TIMESTAMP createdAt || !UUID id then none else some ⟨createdAt, id⟩

/-! ### What the patterns accept -/

private theorem of_fits {template s : JsString} (fit : fits template s = true) :
    s.length = template.length ∧ ∀ c ∈ s, isDigit c = true ∨ c ∈ template := by
  rw [fits, Bool.and_eq_true, beq_iff_eq, List.all_eq_true] at fit
  obtain ⟨same, each⟩ := fit
  refine ⟨same.symm, ?_⟩
  intro c inside
  obtain ⟨i, bound, rfl⟩ := List.mem_iff_getElem.mp inside
  have paired : (template[i], s[i]) ∈ template.zip s := by
    rw [← List.getElem_zip]
    exact List.getElem_mem (by rw [List.length_zip]; omega)
  have kept := each _ paired
  simp only at kept
  split at kept
  · exact .inl kept
  · rw [beq_iff_eq.mp kept]
    exact .inr (List.getElem_mem _)

/-- A fraction is a point and at most six digits. -/
private theorem of_afterFraction (s : JsString) :
    ∃ fraction : JsString, s = fraction ++ afterFraction s ∧ fraction.length ≤ 7 ∧
      ∀ c ∈ fraction, isDigit c = true ∨ c = unit '.' := by
  unfold afterFraction
  cases s with
  | nil => exact ⟨[], rfl, Nat.zero_le _, nofun⟩
  | cons c rest =>
      simp only
      split
      · rename_i point
        obtain ⟨rfl, _, few⟩ := point
        refine ⟨unit '.' :: rest.takeWhile isDigit, ?_, Nat.succ_le_succ few, ?_⟩
        · rw [List.cons_append, List.takeWhile_append_dropWhile]
        · intro d inside
          cases List.mem_cons.mp inside with
          | inl point => exact .inr point
          | inr digit => exact .inl (List.mem_takeWhile_imp digit)
      · exact ⟨[], rfl, Nat.zero_le _, nofun⟩

/-- Whether a unit may stand in a cursor, on the left of the separator. -/
def isPlain (c : CodeUnit) : Bool := c < 128 && c != unit '|'

private theorem isPlain_of_digit {c : CodeUnit} (digit : isHexDigit c = true) :
    isPlain c = true := by
  simp only [isHexDigit, isDigit, Bool.or_eq_true, Bool.and_eq_true, decide_eq_true_eq] at digit
  rw [isPlain, Bool.and_eq_true, decide_eq_true_eq, bne_iff_ne]
  have below : c < unit '|' := by
    rcases digit with (number | lower) | upper
    · exact UInt16.lt_of_le_of_lt number.2 (by decide)
    · exact UInt16.lt_of_le_of_lt lower.2 (by decide)
    · exact UInt16.lt_of_le_of_lt upper.2 (by decide)
  exact ⟨UInt16.lt_trans below (by decide), UInt16.ne_of_lt below⟩

private theorem isHexDigit_of_isDigit {c : CodeUnit} (digit : isDigit c = true) :
    isHexDigit c = true := by
  rw [isHexDigit, digit, Bool.true_or, Bool.true_or]

private theorem plain_of_fits {template s : JsString} (fit : fits template s = true)
    (plain : template.all isPlain = true) : ∀ c ∈ s, isPlain c = true := by
  intro c inside
  cases (of_fits fit).2 c inside with
  | inl digit => exact isPlain_of_digit (isHexDigit_of_isDigit digit)
  | inr literal => exact List.all_eq_true.mp plain c literal

/-- A timestamp is short, and holds no separator. -/
theorem of_TIMESTAMP {s : JsString} (timestamp : TIMESTAMP s = true) :
    0 < s.length ∧ s.length ≤ 32 ∧ ∀ c ∈ s, isPlain c = true := by
  rw [TIMESTAMP, Bool.and_eq_true, List.any_eq_true] at timestamp
  obtain ⟨instant, offset, known, zone⟩ := timestamp
  obtain ⟨fraction, rest, few, point⟩ := of_afterFraction (s.drop 19)
  have whole : s = s.take 19 ++ (fraction ++ afterFraction (s.drop 19)) := by
    rw [← rest, List.take_append_drop]
  have template : ∀ offset ∈ [js "+dd", js "-dd", js "+dd:dd", js "-dd:dd"],
      offset.length ≤ 6 ∧ offset.all isPlain = true := by decide
  obtain ⟨short, plain⟩ := template offset known
  have length := congrArg List.length whole
  rw [List.length_append, List.length_append, (of_fits instant).1, (of_fits zone).1] at length
  have nineteen : (js "dddd-dd-dd dd:dd:dd").length = 19 := rfl
  refine ⟨by omega, by omega, ?_⟩
  intro c inside
  rw [whole, List.mem_append, List.mem_append] at inside
  obtain early | inFraction | late := inside
  · exact plain_of_fits instant (by decide) c early
  · cases point c inFraction with
    | inl digit => exact isPlain_of_digit (isHexDigit_of_isDigit digit)
    | inr point => rw [point]; decide
  · exact plain_of_fits zone plain c late

/-- An identifier is thirty-six units of ASCII. -/
theorem of_UUID {s : JsString} (uuid : UUID s = true) :
    s.length = 36 ∧ ∀ c ∈ s, isPlain c = true := by
  unfold UUID at uuid
  split at uuid
  · rename_i first second third fourth fifth groups
    rw [Bool.and_eq_true, beq_iff_eq] at uuid
    obtain ⟨digits, lengths⟩ := uuid
    have whole : s = [unit '-'].intercalate [first, second, third, fourth, fifth] := by
      rw [← groups, splitOn, List.intercalate_splitOn]
    have joined : s = first ++ unit '-' :: (second ++ unit '-' :: (third ++ unit '-' ::
        (fourth ++ unit '-' :: fifth))) := by
      rw [whole]
      simp [List.intercalate]
    simp only [List.cons.injEq, and_true] at lengths
    rw [joined]
    constructor
    · simp only [List.length_append, List.length_cons]
      omega
    · intro c inside
      simp only [List.mem_append, List.mem_cons] at inside
      simp only [List.all_cons, List.all_nil, Bool.and_true, Bool.and_eq_true,
        List.all_eq_true] at digits
      have dash : isPlain (unit '-') = true := by decide
      rcases inside with inside | rfl | inside | rfl | inside | rfl | inside | rfl | inside
      · exact isPlain_of_digit (digits.1 c inside)
      · exact dash
      · exact isPlain_of_digit (digits.2.1 c inside)
      · exact dash
      · exact isPlain_of_digit (digits.2.2.1 c inside)
      · exact dash
      · exact isPlain_of_digit (digits.2.2.2.1 c inside)
      · exact dash
      · exact isPlain_of_digit (digits.2.2.2.2 c inside)
  · cases uuid

/-! ### Round trip -/

private theorem indexOf_separator {front back : JsString} (plain : ∀ c ∈ front, isPlain c = true) :
    indexOf (front ++ SEPARATOR ++ back) SEPARATOR 0 = some front.length := by
  rw [indexOf, List.find?_range'_eq_some]
  refine ⟨?_, ?_, ?_⟩
  · rw [List.append_assoc, List.drop_left, List.isPrefixOf_iff_prefix]
    exact List.prefix_append _ _
  · rw [List.mem_range'_1, List.length_append, List.length_append]
    omega
  · intro j _ early
    rw [Bool.not_eq_true', Bool.eq_false_iff, ne_eq, List.isPrefixOf_iff_prefix]
    intro here
    have mark : (front ++ SEPARATOR ++ back)[j]? = some (unit '|') := by
      obtain ⟨rest, split⟩ := here
      have first := congrArg List.head? split
      rw [List.head?_drop] at first
      exact first.symm
    rw [List.append_assoc, List.getElem?_append_left early] at mark
    exact absurd (plain _ (List.mem_of_getElem? mark)) (by decide)

/-- A timestamp and an identifier are read back from the cursor they are encoded as. -/
theorem decodeKeysetCursor_encodeKeysetCursor {createdAt id : JsString}
    (timestamp : TIMESTAMP createdAt = true) (uuid : UUID id = true) :
    decodeKeysetCursor (encodeKeysetCursor ⟨createdAt, id⟩) = some ⟨createdAt, id⟩ := by
  obtain ⟨filled, short, plain⟩ := of_TIMESTAMP timestamp
  obtain ⟨length, alsoPlain⟩ := of_UUID uuid
  have ascii : ∀ c ∈ createdAt ++ SEPARATOR ++ id, c < 128 := by
    intro c inside
    rw [List.mem_append, List.mem_append] at inside
    rcases inside with (inTime | separator) | inId
    · exact of_decide_eq_true (Bool.and_eq_true_iff.mp (plain c inTime)).1
    · rw [List.mem_singleton.mp separator]
      decide
    · exact of_decide_eq_true (Bool.and_eq_true_iff.mp (alsoPlain c inId)).1
  have bytes : ∀ byte ∈ utf8Bytes (createdAt ++ SEPARATOR ++ id), byte < 256 := by
    rw [utf8Bytes_ascii ascii]
    intro byte inside
    obtain ⟨c, member, rfl⟩ := List.mem_map.mp inside
    have small : c.toNat < 128 := by simpa [UInt16.lt_iff_toNat_lt] using ascii c member
    omega
  have size : (createdAt ++ SEPARATOR ++ id).length = createdAt.length + 37 := by
    rw [List.length_append, List.length_append, length]
    rfl
  unfold decodeKeysetCursor encodeKeysetCursor MAX_PAYLOAD_LENGTH
  rw [fromBase64Url_toBase64Url bytes, utf8Text_utf8Bytes ascii]
  simp only
  rw [if_neg (by omega), indexOf_separator plain]
  simp only
  rw [if_neg (by omega)]
  have front : slice (createdAt ++ SEPARATOR ++ id) 0 createdAt.length = createdAt := by
    rw [slice, List.append_assoc, List.take_left, List.drop_zero]
  have back : (createdAt ++ SEPARATOR ++ id).drop (createdAt.length + SEPARATOR.length) = id := by
    rw [← List.length_append, List.drop_left]
  rw [front, back, timestamp, uuid]
  rfl

/-! ### Identifiers -/

theorem readUuid_text (id : RowId) : readUuid id.text = some id := by
  obtain ⟨text, uuid, lower⟩ := id
  unfold readUuid
  rw [dif_pos (by rw [lower, lower]; exact ⟨uuid, rfl⟩)]
  simp only [lower]

instance : Finite CodeUnit := Finite.of_injective UInt16.toFin fun _ _ => UInt16.toFin_inj.mp

/-- There are finitely many identifiers. -/
instance : Finite RowId := by
  have bounded : Finite {text : JsString | text.length ≤ 36} := List.finite_length_le CodeUnit 36
  let underlying (id : RowId) : {text : JsString | text.length ≤ 36} :=
    ⟨id.text, Nat.le_of_eq (of_UUID id.canonical.1).1⟩
  apply Finite.of_injective underlying
  intro left right same
  cases left
  cases Subtype.mk.inj same
  rfl

/-- There are finitely many instants. -/
instance : Finite Timestamp := by
  have bounded : Finite (Set.Ico (-210866803200000000 : Int) 9224318016000000000) :=
    Set.finite_Ico _ _
  let underlying (instant : Timestamp) :
      Set.Ico (-210866803200000000 : Int) 9224318016000000000 :=
    ⟨instant.micros, instant.inRange⟩
  apply Finite.of_injective underlying
  intro left right same
  cases left
  cases Subtype.mk.inj same
  rfl

end Assaybank.Db
