import Assaybank.Library.Json
import Assaybank.Library.TextRules
import Assaybank.Runtime.Lines
import Assaybank.Runtime.Utf8

/-!
Owns how many bytes a JSON text takes in UTF-8.

Contract: a text takes no more bytes than its value's bound (`length_utf8Bytes_jsonText_le`), in which
a string of `n` units counts for `6 * n + 2`. A value of ASCII strings has an ASCII text
(`ascii_jsonText`).
-/

namespace Assaybank.Library

open Assaybank.Runtime

private theorem length_utf8CodePoint_le (point : Nat) : (utf8CodePoint point).length ≤ 4 := by
  unfold utf8CodePoint
  split
  · simp
  · split
    · simp
    · split
      · simp
      · simp

private theorem length_utf8Unit_le (c : CodeUnit) : (utf8Unit c).length ≤ 3 := by
  unfold utf8Unit
  split
  · decide
  · have below : c.toNat < 0x10000 := c.toNat_lt
    unfold utf8CodePoint
    rw [if_pos below]
    split
    · simp
    · split
      · simp
      · simp

private theorem length_utf8Unit_surrogate {c : CodeUnit}
    (half : (isHighSurrogate c || isLowSurrogate c) = true) : (utf8Unit c).length = 3 := by
  rw [utf8Unit, if_pos half]
  decide

private theorem not_high_of_low {c : CodeUnit} (low : isLowSurrogate c = true) :
    isHighSurrogate c = false := by
  simp only [isLowSurrogate, isHighSurrogate, Bool.and_eq_true, decide_eq_true_eq,
    Bool.and_eq_false_iff, decide_eq_false_iff_not, UInt16.le_iff_toNat_le,
    UInt16.reduceToNat] at low ⊢
  omega

/-- A lower half that follows nothing takes its three bytes. -/
private theorem length_utf8Bytes_low {c : CodeUnit} (low : isLowSurrogate c = true)
    (rest : JsString) : (utf8Bytes (c :: rest)).length = 3 + (utf8Bytes rest).length := by
  have unit := length_utf8Unit_surrogate (c := c) (by rw [low, Bool.or_true])
  cases rest with
  | nil => exact unit
  | cons d rest =>
      rw [utf8Bytes, not_high_of_low low, Bool.false_and, if_neg (by decide), List.length_append,
        unit]

/-- A text cut in two takes at least the bytes of the whole: a pair that is cut takes more. -/
theorem length_utf8Bytes_append_le (s t : JsString) :
    (utf8Bytes (s ++ t)).length ≤ (utf8Bytes s).length + (utf8Bytes t).length := by
  fun_induction utf8Bytes s with
  | case1 => simp
  | case2 c =>
      cases t with
      | nil => simp [utf8Bytes]
      | cons d rest =>
          show (utf8Bytes (c :: d :: rest)).length ≤ _
          rw [utf8Bytes]
          split
          · rename_i pair
            obtain ⟨high, low⟩ := Bool.and_eq_true_iff.mp pair
            have first := length_utf8Unit_surrogate (c := c) (by rw [high, Bool.true_or])
            have second := length_utf8Bytes_low low rest
            have whole := length_utf8CodePoint_le
              (0x10000 + (c.toNat - 0xD800) * 1024 + (d.toNat - 0xDC00))
            rw [List.length_append]
            omega
          · rw [List.length_append]
  | case3 c d rest pair inductionHypothesis =>
      show (utf8Bytes (c :: d :: (rest ++ t))).length ≤ _
      rw [utf8Bytes, if_pos pair, List.length_append, List.length_append]
      omega
  | case4 c d rest apart inductionHypothesis =>
      show (utf8Bytes (c :: d :: (rest ++ t))).length ≤ _
      rw [utf8Bytes, if_neg apart, List.length_append, List.length_append]
      have later : (utf8Bytes (d :: (rest ++ t))).length ≤ _ := inductionHypothesis
      omega

private theorem hexText_ascii (c : CodeUnit) : ∀ d ∈ js "\\u" ++ hexText c, d < 128 := by
  have digits : ∀ digit : Nat, (js "0123456789abcdef").getD digit 0 < 128 := by
    intro digit
    rw [List.getD_eq_getElem?_getD]
    cases found : (js "0123456789abcdef")[digit]? with
    | none => decide
    | some d =>
        have inside := List.mem_of_getElem? found
        have ascii : ((js "0123456789abcdef").all fun d => decide (d < 128)) = true := by decide
        simpa using List.all_eq_true.mp ascii d inside
  intro d inside
  rcases List.mem_append.mp inside with opening | digit
  · have ascii : ((js "\\u").all fun d => decide (d < 128)) = true := by decide
    simpa using List.all_eq_true.mp ascii d opening
  · obtain ⟨value, _, same⟩ := List.mem_map.mp digit
    rw [← same]
    exact digits value

private theorem length_utf8Bytes_quoteUnit_le (c : CodeUnit) :
    (utf8Bytes (quoteUnit c)).length ≤ 6 := by
  unfold quoteUnit
  repeat' split
  · decide
  · decide
  · decide
  · decide
  · decide
  · decide
  · decide
  · rw [utf8Bytes_ascii (hexText_ascii c)]
    simp [hexText, js]
  · exact (length_utf8Unit_le c).trans (by decide)

private theorem length_utf8Bytes_quoteUnits_le (s : JsString) :
    (utf8Bytes (quoteUnits s)).length ≤ 6 * s.length := by
  fun_induction quoteUnits s with
  | case1 => simp [utf8Bytes]
  | case2 c => exact length_utf8Bytes_quoteUnit_le c
  | case3 c d rest pair inductionHypothesis =>
      rw [utf8Bytes, if_pos pair, List.length_append]
      have point := length_utf8CodePoint_le
        (0x10000 + (c.toNat - 0xD800) * 1024 + (d.toNat - 0xDC00))
      simp only [List.length_cons]
      omega
  | case4 c d rest apart inductionHypothesis =>
      have first := length_utf8Bytes_quoteUnit_le c
      have joined := length_utf8Bytes_append_le (quoteUnit c) (quoteUnits (d :: rest))
      simp only [List.length_cons] at inductionHypothesis ⊢
      omega

/-- A string is written in at most six bytes for each of its units, and its quotes. -/
theorem length_utf8Bytes_jsonString_le (s : JsString) :
    (utf8Bytes (jsonString s)).length ≤ 6 * s.length + 2 := by
  unfold jsonString
  have opened := length_utf8Bytes_append_le (js "\"" ++ quoteUnits s) (js "\"")
  have quoted := length_utf8Bytes_append_le (js "\"") (quoteUnits s)
  have units := length_utf8Bytes_quoteUnits_le s
  have mark : (utf8Bytes (js "\"")).length = 1 := by decide
  omega

/-! ### Bounds -/

mutual

/-- A bound on the bytes of a value's text. -/
def byteBound : Value → Nat
  | .null => 4
  | .bool _ => 5
  | .number n => (utf8Bytes (numberText n)).length
  | .nonFinite => 4
  | .string s => 6 * s.length + 2
  | .array items => itemsBound items + 2
  | .object members => membersBound members + 2

def itemsBound : List Value → Nat
  | [] => 0
  | item :: rest => byteBound item + 1 + itemsBound rest

def membersBound : List (JsString × Value) → Nat
  | [] => 0
  | (name, value) :: rest => 6 * name.length + 3 + byteBound value + 1 + membersBound rest

end

private theorem length_utf8Bytes_joinWith_le (text : JsString) (rest : List JsString) :
    (utf8Bytes (joinWith (js ",") (text :: rest))).length ≤
      (utf8Bytes text).length + 1 + (utf8Bytes (joinWith (js ",") rest)).length := by
  cases rest with
  | nil =>
      have alone : joinWith (js ",") [text] = text := List.intercalate_singleton
      rw [alone]
      omega
  | cons next others =>
      have joined : joinWith (js ",") (text :: next :: others) =
          text ++ js "," ++ joinWith (js ",") (next :: others) := List.intercalate_cons_cons
      rw [joined]
      have whole := length_utf8Bytes_append_le (text ++ js ",") (joinWith (js ",") (next :: others))
      have first := length_utf8Bytes_append_le text (js ",")
      have comma : (utf8Bytes (js ",")).length = 1 := by decide
      omega

private theorem length_utf8Bytes_enclosed_le (left text right : JsString)
    (opening : (utf8Bytes left).length = 1) (closing : (utf8Bytes right).length = 1) :
    (utf8Bytes (left ++ text ++ right)).length ≤ (utf8Bytes text).length + 2 := by
  have whole := length_utf8Bytes_append_le (left ++ text) right
  have first := length_utf8Bytes_append_le left text
  omega

mutual

/-- A text takes no more bytes than its value's bound. -/
theorem length_utf8Bytes_jsonText_le :
    ∀ value : Value, (utf8Bytes (jsonText value)).length ≤ byteBound value
  | .null => by
      rw [jsonText, byteBound]
      decide
  | .bool b => by
      rw [jsonText, byteBound]
      cases b <;> decide
  | .number n => by rw [jsonText, byteBound]
  | .nonFinite => by
      rw [jsonText, byteBound]
      decide
  | .string s => by
      rw [jsonText, byteBound]
      exact length_utf8Bytes_jsonString_le s
  | .array items => by
      rw [jsonText, byteBound]
      have inner := length_utf8Bytes_jsonItems_le items
      have outer := length_utf8Bytes_enclosed_le (js "[") (joinWith (js ",") (jsonItems items))
        (js "]") (by decide) (by decide)
      omega
  | .object members => by
      rw [jsonText, byteBound]
      have inner := length_utf8Bytes_jsonMembers_le members
      have outer := length_utf8Bytes_enclosed_le (js "\x7b")
        (joinWith (js ",") (jsonMembers members)) (js "\x7d") (by decide) (by decide)
      omega

private theorem length_utf8Bytes_jsonItems_le :
    ∀ items : List Value,
      (utf8Bytes (joinWith (js ",") (jsonItems items))).length ≤ itemsBound items
  | [] => by decide
  | item :: rest => by
      rw [jsonItems, itemsBound]
      have joined := length_utf8Bytes_joinWith_le (jsonText item) (jsonItems rest)
      have first := length_utf8Bytes_jsonText_le item
      have others := length_utf8Bytes_jsonItems_le rest
      omega

private theorem length_utf8Bytes_jsonMembers_le :
    ∀ members : List (JsString × Value),
      (utf8Bytes (joinWith (js ",") (jsonMembers members))).length ≤ membersBound members
  | [] => by decide
  | (name, value) :: rest => by
      rw [jsonMembers, membersBound]
      have joined := length_utf8Bytes_joinWith_le (jsonString name ++ js ":" ++ jsonText value)
        (jsonMembers rest)
      have member := length_utf8Bytes_append_le (jsonString name ++ js ":") (jsonText value)
      have named := length_utf8Bytes_append_le (jsonString name) (js ":")
      have key := length_utf8Bytes_jsonString_le name
      have colon : (utf8Bytes (js ":")).length = 1 := by decide
      have first := length_utf8Bytes_jsonText_le value
      have others := length_utf8Bytes_jsonMembers_le rest
      omega

end

/-! ### ASCII -/

private theorem ascii_literal {s : JsString} (ascii : isAsciiText s = true) : ∀ c ∈ s, c < 128 := by
  intro c inside
  have units := List.all_eq_true.mp ascii c inside
  rw [Bool.and_eq_true, decide_eq_true_eq, decide_eq_true_eq] at units
  exact units.2

private theorem ascii_append {s t : JsString} (first : ∀ c ∈ s, c < 128)
    (second : ∀ c ∈ t, c < 128) : ∀ c ∈ s ++ t, c < 128 :=
  List.forall_mem_append.mpr ⟨first, second⟩

private theorem ascii_quoteUnit {c : CodeUnit} (small : c < 128) : ∀ d ∈ quoteUnit c, d < 128 := by
  unfold quoteUnit
  repeat' split
  · exact ascii_literal (by decide)
  · exact ascii_literal (by decide)
  · exact ascii_literal (by decide)
  · exact ascii_literal (by decide)
  · exact ascii_literal (by decide)
  · exact ascii_literal (by decide)
  · exact ascii_literal (by decide)
  · exact hexText_ascii c
  · exact List.forall_mem_singleton.mpr small

private theorem ascii_quoteUnits {s : JsString} (ascii : ∀ c ∈ s, c < 128) :
    ∀ d ∈ quoteUnits s, d < 128 := by
  fun_induction quoteUnits s with
  | case1 => exact ascii
  | case2 c => exact ascii_quoteUnit (ascii c List.mem_cons_self)
  | case3 c d rest pair inductionHypothesis =>
      have later := inductionHypothesis fun e inside =>
        ascii e (List.mem_cons_of_mem _ (List.mem_cons_of_mem _ inside))
      exact List.forall_mem_cons.mpr ⟨ascii c List.mem_cons_self, List.forall_mem_cons.mpr
        ⟨ascii d (List.mem_cons_of_mem _ List.mem_cons_self), later⟩⟩
  | case4 c d rest apart inductionHypothesis =>
      exact ascii_append (ascii_quoteUnit (ascii c List.mem_cons_self))
        (inductionHypothesis fun e inside => ascii e (List.mem_cons_of_mem _ inside))

private theorem ascii_jsonString {s : JsString} (ascii : isAsciiText s = true) :
    ∀ c ∈ jsonString s, c < 128 :=
  ascii_append (ascii_append (ascii_literal (by decide)) (ascii_quoteUnits (ascii_literal ascii)))
    (ascii_literal (by decide))

private theorem ascii_numberText (n : Decimal) : ∀ c ∈ numberText n, c < 128 := by
  intro c inside
  have unit := numberUnit_numberText n c inside
  have small := of_numberUnit (fun c => decide (c < 128)) unit (by decide)
  simpa using small

private theorem ascii_joinWith {parts : List JsString} (ascii : ∀ part ∈ parts, ∀ c ∈ part, c < 128) :
    ∀ c ∈ joinWith (js ",") parts, c < 128 := by
  intro c inside
  rcases mem_of_mem_joinWith inside with rfl | ⟨part, member, here⟩
  · decide
  · exact ascii part member c here

mutual

/-- The text of a value whose strings are ASCII is ASCII. -/
theorem ascii_jsonText : ∀ value : Value, everyString isAsciiText value = true →
    ∀ c ∈ jsonText value, c < 128
  | .null, _ => ascii_literal (by decide)
  | .bool b, _ => by
      rw [jsonText]
      cases b <;> exact ascii_literal (by decide)
  | .number n, _ => by
      rw [jsonText]
      exact ascii_numberText n
  | .nonFinite, _ => ascii_literal (by decide)
  | .string s, ascii => by
      rw [jsonText]
      exact ascii_jsonString ascii
  | .array items, ascii => by
      rw [jsonText]
      exact ascii_append (ascii_append (ascii_literal (by decide))
        (ascii_joinWith (ascii_jsonItems items ascii))) (ascii_literal (by decide))
  | .object members, ascii => by
      rw [jsonText]
      exact ascii_append (ascii_append (ascii_literal (by decide))
        (ascii_joinWith (ascii_jsonMembers members ascii))) (ascii_literal (by decide))

private theorem ascii_jsonItems : ∀ items : List Value, everyItem isAsciiText items = true →
    ∀ part ∈ jsonItems items, ∀ c ∈ part, c < 128
  | [], _ => fun part inside => by cases inside
  | item :: rest, ascii => by
      rw [everyItem, Bool.and_eq_true] at ascii
      rw [jsonItems]
      exact List.forall_mem_cons.mpr ⟨ascii_jsonText item ascii.1, ascii_jsonItems rest ascii.2⟩

private theorem ascii_jsonMembers : ∀ members : List (JsString × Value),
    everyMember isAsciiText members = true → ∀ part ∈ jsonMembers members, ∀ c ∈ part, c < 128
  | [], _ => fun part inside => by cases inside
  | (name, value) :: rest, ascii => by
      rw [everyMember, Bool.and_eq_true, Bool.and_eq_true] at ascii
      rw [jsonMembers]
      exact List.forall_mem_cons.mpr
        ⟨ascii_append (ascii_append (ascii_jsonString ascii.1.1) (ascii_literal (by decide)))
          (ascii_jsonText value ascii.1.2), ascii_jsonMembers rest ascii.2⟩

end

end Assaybank.Library
