import Assaybank.Library.Json
import Assaybank.Library.OrderedMap
import Assaybank.Library.TextRules

/-!
Owns the reading of a JSON text: by `JSON.parse`, and as `jsonb`, whose grammar is the same less the
strings PostgreSQL does not store, which are those with U+0000 or an unpaired surrogate.

Contract: what `JSON.stringify` wrote of a plain value is parsed as that value (`parseJson_jsonText`);
as `jsonb` it is read when every string in it can be stored, and refused otherwise
(`jsonbOf_jsonText`).

It does not own the order of a stored object's members, nor which of two members of one name is
stored. Half of a surrogate pair that is not escaped is no UTF-8 and does not reach the server; there
it counts as an unpaired one.
-/

namespace Assaybank.Library

open Assaybank.Runtime

/-! ### Strings -/

/-- Whether every unit is a character other than U+0000, or half of a pair. -/
def isCharacterText : JsString → Bool
  | [] => true
  | [c] => c != 0 && !isHighSurrogate c && !isLowSurrogate c
  | c :: d :: rest =>
      if isHighSurrogate c then isLowSurrogate d && isCharacterText rest
      else c != 0 && !isLowSurrogate c && isCharacterText (d :: rest)

theorem isCharacterText_of_ascii {s : JsString} (ascii : isAsciiText s = true) :
    isCharacterText s = true := by
  have single {c : CodeUnit} (low : 0 < c ∧ c < 128) :
      (c != 0) = true ∧ isHighSurrogate c = false ∧ isLowSurrogate c = false := by
    obtain ⟨positive, small⟩ := low
    have below : c.toNat < 128 := by simpa [UInt16.lt_iff_toNat_lt] using small
    refine ⟨bne_iff_ne.mpr fun zero => by simp [zero] at positive, ?_, ?_⟩
    · simp only [isHighSurrogate, Bool.and_eq_false_iff, decide_eq_false_iff_not,
        UInt16.le_iff_toNat_le, UInt16.reduceToNat]
      omega
    · simp only [isLowSurrogate, Bool.and_eq_false_iff, decide_eq_false_iff_not,
        UInt16.le_iff_toNat_le, UInt16.reduceToNat]
      omega
  have units : ∀ c ∈ s, 0 < c ∧ c < 128 := by simpa [isAsciiText] using ascii
  fun_induction isCharacterText s with
  | case1 => rfl
  | case2 c =>
      obtain ⟨filled, high, low⟩ := single (units c List.mem_cons_self)
      rw [filled, high, low]
      rfl
  | case3 c d rest half inductionHypothesis =>
      have high := (single (units c List.mem_cons_self)).2.1
      rw [half] at high
      cases high
  | case4 c d rest half inductionHypothesis =>
      obtain ⟨filled, _, low⟩ := single (units c List.mem_cons_self)
      have others : ∀ e ∈ d :: rest, 0 < e ∧ e < 128 :=
        fun e inside => units e (List.mem_cons_of_mem _ inside)
      rw [filled, low, inductionHypothesis (by simpa [isAsciiText] using others) others]
      rfl

/-- What a backslash before a letter stands for. -/
def escapedUnit (letter : CodeUnit) : Option CodeUnit :=
  if letter = unit '"' ∨ letter = unit '\\' ∨ letter = unit '/' then some letter
  else if letter = unit 'b' then some 0x08
  else if letter = unit 'f' then some 0x0C
  else if letter = unit 'n' then some 0x0A
  else if letter = unit 'r' then some 0x0D
  else if letter = unit 't' then some 0x09
  else none

/-- The units of a string after its opening quote, and what follows its closing one. -/
def readUnits : JsString → Option (JsString × JsString)
  | [] => none
  | c :: rest =>
      if c = unit '"' then some ([], rest)
      else if c = unit '\\' then
        match rest with
        | [] => none
        | letter :: after =>
            if letter = unit 'u' then
              match after with
              | first :: second :: third :: fourth :: more =>
                  if [first, second, third, fourth].all isHexDigit then
                    (readUnits more).map fun found =>
                      ((parseDigits 16 [first, second, third, fourth]).toUInt16 :: found.1, found.2)
                  else none
              | _ => none
            else
              match escapedUnit letter with
              | some meant => (readUnits after).map fun found => (meant :: found.1, found.2)
              | none => none
      else if c < 0x20 then none
      else (readUnits rest).map fun found => (c :: found.1, found.2)

section Reader

-- The strings a reader takes.
variable (admits : JsString → Bool)

/-- A string after its opening quote. -/
def readString (s : JsString) : Option (JsString × JsString) :=
  match readUnits s with
  | some (text, after) => if admits text then some (text, after) else none
  | none => none

/-! ### Values -/

def isJsonSpace (c : CodeUnit) : Bool := c == 0x20 || c == 0x09 || c == 0x0A || c == 0x0D

def skipSpace (s : JsString) : JsString := s.dropWhile isJsonSpace

/-- What the text of a number runs through. -/
def inNumber (c : CodeUnit) : Bool := isNumberUnit c || c == unit 'E'

/-- A value that is neither a string nor composed. -/
def readScalar (s : JsString) : Option (Value × JsString) :=
  if (js "null").isPrefixOf s then some (.null, s.drop 4)
  else if (js "true").isPrefixOf s then some (.bool true, s.drop 4)
  else if (js "false").isPrefixOf s then some (.bool false, s.drop 5)
  else if isJsonNumber (s.takeWhile inNumber) then
    (toNumber (s.takeWhile inNumber)).map fun n => (.number n, s.dropWhile inNumber)
  else none

mutual

def readValue : Nat → JsString → Option (Value × JsString)
  | 0, _ => none
  | fuel + 1, s =>
      match skipSpace s with
      | [] => none
      | c :: rest =>
          if c = unit '"' then (readString admits rest).map fun found => (.string found.1, found.2)
          else if c = unit '[' then
            if (skipSpace rest).head? = some (unit ']') then some (.array [], (skipSpace rest).tail)
            else (readItems fuel rest).map fun found => (.array found.1, found.2)
          else if c = unit '\x7b' then
            if (skipSpace rest).head? = some (unit '\x7d') then
              some (.object [], (skipSpace rest).tail)
            else (readMembers fuel rest).map fun found => (.object found.1, found.2)
          else readScalar (c :: rest)

/-- The items of an array that has one, and what follows its closing bracket. -/
def readItems : Nat → JsString → Option (List Value × JsString)
  | 0, _ => none
  | fuel + 1, s =>
      match readValue fuel s with
      | none => none
      | some (item, after) =>
          match skipSpace after with
          | [] => none
          | c :: rest =>
              if c = unit ']' then some ([item], rest)
              else if c = unit ',' then
                (readItems fuel rest).map fun found => (item :: found.1, found.2)
              else none

/-- The members of an object that has one, and what follows its closing brace. -/
def readMembers : Nat → JsString → Option (List (JsString × Value) × JsString)
  | 0, _ => none
  | fuel + 1, s =>
      match readMember fuel s with
      | none => none
      | some (member, after) =>
          match skipSpace after with
          | [] => none
          | c :: rest =>
              if c = unit '\x7d' then some ([member], rest)
              else if c = unit ',' then
                (readMembers fuel rest).map fun found => (member :: found.1, found.2)
              else none

/-- A name, a colon and a value. -/
def readMember : Nat → JsString → Option ((JsString × Value) × JsString)
  | 0, _ => none
  | fuel + 1, s =>
      match skipSpace s with
      | [] => none
      | c :: rest =>
          if c = unit '"' then
            match readString admits rest with
            | none => none
            | some (name, after) =>
                match skipSpace after with
                | [] => none
                | d :: more =>
                    if d = unit ':' then
                      (readValue fuel more).map fun found => ((name, found.1), found.2)
                    else none
          else none

end

/-- A whole text. No value of a text of `n` units lies more than `2 * n` steps deep. -/
def readJson (text : JsString) : Option Value :=
  match readValue admits (2 * text.length) text with
  | some (value, after) => if skipSpace after = [] then some value else none
  | none => none

end Reader

/-- `text::jsonb`; `none` where the cast raises. -/
def jsonbOf (text : JsString) : Option Value := readJson isCharacterText text

mutual

/-- Of the members of one name the last is kept, where the first stands. -/
def keepLast : Value → Value
  | .array items => .array (keepLastItems items)
  | .object members => .object (keepLastMembers [] members)
  | .null => .null
  | .bool b => .bool b
  | .number n => .number n
  | .nonFinite => .nonFinite
  | .string s => .string s

def keepLastItems : List Value → List Value
  | [] => []
  | item :: rest => keepLast item :: keepLastItems rest

def keepLastMembers (kept : List (JsString × Value)) :
    List (JsString × Value) → List (JsString × Value)
  | [] => kept
  | (name, value) :: rest => keepLastMembers (setEntry kept name (keepLast value)) rest

end

/-- `JSON.parse(text)`; `none` where it throws. A number is the decimal it is written as. -/
def parseJson (text : JsString) : Option Value := (readJson (fun _ => true) text).map keepLast

mutual

/-- Whether `JSON.parse` can give a value: its numbers are finite, and no object has two members of
one name. -/
def isPlain : Value → Bool
  | .null => true
  | .bool _ => true
  | .number _ => true
  | .nonFinite => false
  | .string _ => true
  | .array items => plainItems items
  | .object members => decide (members.map Prod.fst).Nodup && plainMembers members

def plainItems : List Value → Bool
  | [] => true
  | item :: rest => isPlain item && plainItems rest

def plainMembers : List (JsString × Value) → Bool
  | [] => true
  | (_, value) :: rest => isPlain value && plainMembers rest

end

/-! ### Strings that were written -/

private theorem hexDigit_facts {digit : Nat} (small : digit < 16) :
    isHexDigit ((js "0123456789abcdef").getD digit 0) = true ∧
      digitValue ((js "0123456789abcdef").getD digit 0) = digit := by
  interval_cases digit <;> decide

private theorem readUnits_hexText (c : CodeUnit) (rest : JsString) :
    readUnits (js "\\u" ++ hexText c ++ rest) =
      (readUnits rest).map fun found => (c :: found.1, found.2) := by
  have below := c.toNat_lt
  obtain ⟨firstHex, first⟩ := hexDigit_facts (by omega : c.toNat / 4096 < 16)
  obtain ⟨secondHex, second⟩ := hexDigit_facts (by omega : c.toNat / 256 % 16 < 16)
  obtain ⟨thirdHex, third⟩ := hexDigit_facts (by omega : c.toNat / 16 % 16 < 16)
  obtain ⟨fourthHex, fourth⟩ := hexDigit_facts (by omega : c.toNat % 16 < 16)
  have value : (parseDigits 16 (hexText c)).toUInt16 = c := by
    have sum : parseDigits 16 (hexText c) = c.toNat := by
      simp only [hexText, parseDigits, List.map_cons, List.map_nil, List.foldl_cons,
        List.foldl_nil, first, second, third, fourth]
      omega
    rw [sum]
    exact UInt16.ofNat_toNat
  have hexadecimal : (hexText c).all isHexDigit = true := by
    simp only [hexText, List.map_cons, List.map_nil, List.all_cons, List.all_nil, firstHex,
      secondHex, thirdHex, fourthHex, Bool.and_self]
  show readUnits (unit '\\' :: unit 'u' :: (hexText c ++ rest)) = _
  rw [readUnits.eq_def]
  simp only [if_neg (by decide : unit '\\' ≠ unit '"'), if_pos]
  show (if (hexText c).all isHexDigit then (readUnits rest).map fun found =>
    ((parseDigits 16 (hexText c)).toUInt16 :: found.1, found.2) else none) = _
  rw [if_pos hexadecimal, value]

private theorem readUnits_close (rest : JsString) :
    readUnits (unit '"' :: rest) = some ([], rest) := by
  rw [readUnits.eq_def]
  exact if_pos rfl

/-- A unit that needs no escape is read as itself. -/
private theorem readUnits_raw {c : CodeUnit} (quote : c ≠ unit '"') (backslash : c ≠ unit '\\')
    (printed : ¬ c < 0x20) (rest : JsString) :
    readUnits (c :: rest) = (readUnits rest).map fun found => (c :: found.1, found.2) := by
  rw [readUnits.eq_def]
  simp only [if_neg quote, if_neg backslash, if_neg printed]

private theorem readUnits_escape (letter : CodeUnit) {meant : CodeUnit}
    (other : letter ≠ unit 'u') (known : escapedUnit letter = some meant) (rest : JsString) :
    readUnits (unit '\\' :: letter :: rest) =
      (readUnits rest).map fun found => (meant :: found.1, found.2) := by
  rw [readUnits.eq_def]
  simp only [if_neg (by decide : unit '\\' ≠ unit '"'), if_pos, if_neg other, known]

private theorem readUnits_quoteUnit (c : CodeUnit) (rest : JsString) :
    readUnits (quoteUnit c ++ rest) =
      (readUnits rest).map fun found => (c :: found.1, found.2) := by
  unfold quoteUnit
  split_ifs with quote backslash back tab line form carriage escaped
  · rw [quote]
    exact readUnits_escape _ (by decide) rfl rest
  · rw [backslash]
    exact readUnits_escape _ (by decide) rfl rest
  · rw [back]
    exact readUnits_escape (unit 'b') (by decide) rfl rest
  · rw [tab]
    exact readUnits_escape (unit 't') (by decide) rfl rest
  · rw [line]
    exact readUnits_escape (unit 'n') (by decide) rfl rest
  · rw [form]
    exact readUnits_escape (unit 'f') (by decide) rfl rest
  · rw [carriage]
    exact readUnits_escape (unit 'r') (by decide) rfl rest
  · exact readUnits_hexText c rest
  · exact readUnits_raw quote backslash (fun low => escaped (.inl low)) rest

private theorem surrogate_raw {c : CodeUnit} (half : isHighSurrogate c = true ∨
    isLowSurrogate c = true) : c ≠ unit '"' ∧ c ≠ unit '\\' ∧ ¬ c < 0x20 := by
  have high : 0xD800 ≤ c.toNat := by
    simp only [isHighSurrogate, isLowSurrogate, Bool.and_eq_true, decide_eq_true_eq,
      UInt16.le_iff_toNat_le, UInt16.reduceToNat] at half
    omega
  refine ⟨?_, ?_, ?_⟩
  · rintro rfl
    exact absurd high (by decide)
  · rintro rfl
    exact absurd high (by decide)
  · intro low
    have small : c.toNat < 0x20 := by simpa [UInt16.lt_iff_toNat_lt] using low
    omega

/-- What `JSON.stringify` wrote of a string is read as that string. -/
theorem readUnits_quoteUnits (s rest : JsString) :
    readUnits (quoteUnits s ++ unit '"' :: rest) = some (s, rest) := by
  fun_induction quoteUnits s with
  | case1 => exact readUnits_close rest
  | case2 c =>
      rw [readUnits_quoteUnit, readUnits_close]
      rfl
  | case3 c d others pair inductionHypothesis =>
      obtain ⟨high, low⟩ := (Bool.and_eq_true _ _).mp pair
      obtain ⟨quote, backslash, printed⟩ := surrogate_raw (.inl high)
      obtain ⟨quote', backslash', printed'⟩ := surrogate_raw (.inr low)
      rw [List.cons_append, List.cons_append, readUnits_raw quote backslash printed,
        readUnits_raw quote' backslash' printed', inductionHypothesis]
      rfl
  | case4 c d others other inductionHypothesis =>
      rw [List.append_assoc, readUnits_quoteUnit, inductionHypothesis]
      rfl

variable {admits : JsString → Bool}

/-- A string that was written is read, unless it is one that is not stored. -/
theorem readString_quoteUnits (s rest : JsString) :
    readString admits (quoteUnits s ++ unit '"' :: rest) =
      if admits s then some (s, rest) else none := by
  rw [readString, readUnits_quoteUnits]

/-! ### Values that were written -/

/-- What may follow a value: nothing that a number would run on through. -/
private def Follows (rest : JsString) : Prop := ∀ c ∈ rest.head?, inNumber c = false

private theorem skipSpace_cons {c : CodeUnit} {rest : JsString} (visible : isJsonSpace c = false) :
    skipSpace (c :: rest) = c :: rest :=
  List.dropWhile_cons_of_neg (by simp [visible])

/-- A text starts with a unit that is no space and closes nothing. -/
private theorem jsonText_head (v : Value) :
    ∃ c rest, jsonText v = c :: rest ∧ isJsonSpace c = false ∧ c ≠ unit ']' := by
  cases v with
  | null => exact ⟨unit 'n', js "ull", by rw [jsonText]; rfl, by decide, by decide⟩
  | bool b =>
      cases b with
      | false => exact ⟨unit 'f', js "alse", by rw [jsonText]; rfl, by decide, by decide⟩
      | true => exact ⟨unit 't', js "rue", by rw [jsonText]; rfl, by decide, by decide⟩
  | number n =>
      obtain ⟨c, rest, same⟩ := List.exists_cons_of_ne_nil (numberText_ne_nil n)
      have unit := numberUnit_numberText n c (same ▸ List.mem_cons_self)
      have visible := of_numberUnit (fun c => !isJsonSpace c && c != Runtime.unit ']') unit (by decide)
      rw [Bool.and_eq_true, Bool.not_eq_true', bne_iff_ne] at visible
      exact ⟨c, rest, by rw [jsonText, same], visible.1, visible.2⟩
  | nonFinite => exact ⟨unit 'n', js "ull", by rw [jsonText]; rfl, by decide, by decide⟩
  | string s =>
      exact ⟨unit '"', quoteUnits s ++ js "\"", by rw [jsonText]; rfl, by decide, by decide⟩
  | array items =>
      exact ⟨unit '[', joinWith (js ",") (jsonItems items) ++ js "]", by rw [jsonText]; rfl,
        by decide, by decide⟩
  | object members =>
      exact ⟨unit '\x7b', joinWith (js ",") (jsonMembers members) ++ js "\x7d",
        by rw [jsonText]; rfl, by decide, by decide⟩

private theorem readScalar_number (n : Decimal) {rest : JsString} (follows : Follows rest) :
    readScalar (numberText n ++ rest) = some (.number n, rest) := by
  have units : ∀ c ∈ numberText n, inNumber c = true := by
    intro c inside
    rw [inNumber, numberUnit_numberText n c inside, Bool.true_or]
  have run : (numberText n ++ rest).takeWhile inNumber = numberText n := by
    rw [List.takeWhile_append_of_pos units]
    cases rest with
    | nil => simp
    | cons c rest => simp [follows c rfl]
  have after : (numberText n ++ rest).dropWhile inNumber = rest := by
    have split := List.takeWhile_append_dropWhile (p := inNumber) (l := numberText n ++ rest)
    rw [run] at split
    exact List.append_cancel_left split
  obtain ⟨c, tail, same⟩ := List.exists_cons_of_ne_nil (numberText_ne_nil n)
  have word : c ≠ unit 'n' ∧ c ≠ unit 't' ∧ c ≠ unit 'f' :=
    of_decide_eq_true (of_numberUnit (fun c => decide (c ≠ unit 'n' ∧ c ≠ unit 't' ∧ c ≠ unit 'f'))
      (numberUnit_numberText n c (same ▸ List.mem_cons_self)) (by decide))
  have other {literal : String} {letter : CodeUnit} (starts : (js literal).head? = some letter)
      (differs : c ≠ letter) : ¬ (js literal).isPrefixOf (numberText n ++ rest) = true := by
    obtain ⟨others, text⟩ := List.head?_eq_some_iff.mp starts
    rw [same, List.cons_append, text]
    simp [List.isPrefixOf, Ne.symm differs]
  unfold readScalar
  rw [if_neg (other rfl word.1), if_neg (other rfl word.2.1), if_neg (other rfl word.2.2), run,
    after, if_pos (isJsonNumber_numberText n), toNumber_numberText]
  rfl

/-- A value that is neither a string nor composed starts with none of their units. -/
private theorem readValue_scalar {fuel : Nat} {c : CodeUnit} (rest : JsString)
    (visible : isJsonSpace c = false)
    (other : c ≠ unit '"' ∧ c ≠ unit '[' ∧ c ≠ unit '\x7b') :
    readValue admits (fuel + 1) (c :: rest) = readScalar (c :: rest) := by
  rw [readValue, skipSpace_cons visible]
  simp only [if_neg other.1, if_neg other.2.1, if_neg other.2.2]

private theorem readValue_string (fuel : Nat) (s rest : JsString) :
    readValue admits (fuel + 1) (jsonString s ++ rest) =
      if admits s then some (.string s, rest) else none := by
  have text : jsonString s ++ rest = unit '"' :: (quoteUnits s ++ unit '"' :: rest) := by
    simp [jsonString, js]
  rw [text, readValue, skipSpace_cons (by decide)]
  simp only [if_pos, readString_quoteUnits]
  split
  · rfl
  · rfl

private theorem readMember_written {fuel : Nat} (name : JsString) {value : Value} {rest : JsString}
    {stored : Bool}
    (read : readValue admits fuel (jsonText value ++ rest) =
      if stored then some (value, rest) else none) :
    readMember admits (fuel + 1) (jsonString name ++ js ":" ++ jsonText value ++ rest) =
      if admits name && stored then some ((name, value), rest) else none := by
  have text : jsonString name ++ js ":" ++ jsonText value ++ rest =
      unit '"' :: (quoteUnits name ++ unit '"' :: (unit ':' :: (jsonText value ++ rest))) := by
    simp [jsonString, js]
  rw [text, readMember, skipSpace_cons (by decide)]
  simp only [if_pos, readString_quoteUnits]
  cases admits name with
  | false => rfl
  | true =>
      simp only [if_pos, skipSpace_cons (by decide : isJsonSpace (unit ':') = false), read,
        Bool.true_and]
      cases stored with
      | false => rfl
      | true => rfl

private theorem follows_cons {c : CodeUnit} {rest : JsString} (other : inNumber c = false) :
    Follows (c :: rest) := by
  intro d first
  rw [List.head?_cons, Option.mem_some_iff] at first
  exact first ▸ other

private theorem joinWith_pair (first second : JsString) (others : List JsString) :
    joinWith (js ",") (first :: second :: others) =
      first ++ unit ',' :: joinWith (js ",") (second :: others) := by
  rw [joinWith, List.intercalate_cons_cons, List.append_assoc]
  rfl

private theorem joinWith_one (first : JsString) : joinWith (js ",") [first] = first :=
  List.intercalate_singleton

/-- Items start with a unit that is no space and does not close the array. -/
private theorem joinWith_head (item : Value) (others : List Value) :
    ∃ c rest, joinWith (js ",") (jsonItems (item :: others)) = c :: rest ∧
      isJsonSpace c = false ∧ c ≠ unit ']' := by
  obtain ⟨c, rest, same, visible, other⟩ := jsonText_head item
  cases others with
  | nil => exact ⟨c, rest, by rw [jsonItems, jsonItems, joinWith_one, same], visible, other⟩
  | cons next more =>
      refine ⟨c, rest ++ unit ',' :: joinWith (js ",") (jsonItems (next :: more)), ?_, visible, other⟩
      rw [jsonItems, jsonItems, joinWith_pair, same, List.cons_append]

private theorem joinWith_members (member : JsString × Value) (others : List (JsString × Value)) :
    ∃ rest, joinWith (js ",") (jsonMembers (member :: others)) = unit '"' :: rest := by
  obtain ⟨name, value⟩ := member
  cases others with
  | nil =>
      refine ⟨quoteUnits name ++ js "\"" ++ js ":" ++ jsonText value, ?_⟩
      rw [jsonMembers, jsonMembers, joinWith_one]
      rfl
  | cons next more =>
      refine ⟨quoteUnits name ++ js "\"" ++ js ":" ++ jsonText value ++
        unit ',' :: joinWith (js ",") (jsonMembers (next :: more)), ?_⟩
      rw [jsonMembers, jsonMembers, joinWith_pair]
      rfl

mutual

/-- A value that was written is read, unless a string in it is one that is not stored. -/
private theorem readValue_jsonText : ∀ (v : Value), isPlain v = true → ∀ (fuel : Nat)
    (rest : JsString), 2 * (jsonText v).length ≤ fuel → Follows rest →
      readValue admits fuel (jsonText v ++ rest) =
        if everyString admits v then some (v, rest) else none
  | v, plain, fuel, rest, enough, follows => by
      obtain ⟨c, text, same, visible, _⟩ := jsonText_head v
      have positive : 0 < (jsonText v).length := by
        rw [same]
        exact Nat.succ_pos _
      obtain ⟨fuel, rfl⟩ := Nat.exists_eq_succ_of_ne_zero (by omega : fuel ≠ 0)
      cases v with
      | null =>
          rw [jsonText, everyString, if_pos rfl]
          exact readValue_scalar (js "ull" ++ rest) (by decide) (by decide)
      | bool b =>
          cases b with
          | false =>
              rw [jsonText, everyString, if_pos rfl]
              exact readValue_scalar (js "alse" ++ rest) (by decide) (by decide)
          | true =>
              rw [jsonText, everyString, if_pos rfl]
              exact readValue_scalar (js "rue" ++ rest) (by decide) (by decide)
      | number n =>
          rw [jsonText] at same ⊢
          have plainUnit := of_numberUnit
            (fun c => decide (c ≠ unit '"' ∧ c ≠ unit '[' ∧ c ≠ unit '\x7b'))
            (numberUnit_numberText n c (same ▸ List.mem_cons_self)) (by decide)
          rw [everyString, if_pos rfl, ← readScalar_number n follows, same]
          exact readValue_scalar _ visible (of_decide_eq_true plainUnit)
      | nonFinite => cases plain
      | string s =>
          rw [jsonText, everyString]
          exact readValue_string fuel s rest
      | array items =>
          have written : jsonText (.array items) ++ rest =
              unit '[' :: (joinWith (js ",") (jsonItems items) ++ unit ']' :: rest) := by
            rw [jsonText]
            simp [js]
          have length : (jsonText (.array items)).length =
              (joinWith (js ",") (jsonItems items)).length + 2 := by
            rw [jsonText, List.length_append, List.length_append]
            show 1 + _ + 1 = _
            omega
          rw [written, readValue, skipSpace_cons (by decide), everyString]
          simp only [if_neg (by decide : unit '[' ≠ unit '"'), if_pos]
          cases items with
          | nil =>
              show (if (skipSpace (unit ']' :: rest)).head? = some (unit ']') then _ else _) = _
              rw [skipSpace_cons (by decide), List.head?_cons, if_pos rfl]
              rfl
          | cons item others =>
              obtain ⟨d, after, first, shown, open_⟩ := joinWith_head item others
              have read := readItems_jsonItems (item :: others) (by simp) plain fuel rest (by omega)
              rw [first, List.cons_append] at read ⊢
              rw [skipSpace_cons shown, List.head?_cons, if_neg (by simpa using open_), read]
              split
              · rfl
              · rfl
      | object members =>
          have written : jsonText (.object members) ++ rest =
              unit '\x7b' :: (joinWith (js ",") (jsonMembers members) ++ unit '\x7d' :: rest) := by
            rw [jsonText]
            simp [js]
          have length : (jsonText (.object members)).length =
              (joinWith (js ",") (jsonMembers members)).length + 2 := by
            rw [jsonText, List.length_append, List.length_append]
            show 1 + _ + 1 = _
            omega
          rw [written, readValue, skipSpace_cons (by decide), everyString]
          simp only [if_neg (by decide : unit '\x7b' ≠ unit '"'),
            if_neg (by decide : unit '\x7b' ≠ unit '['), if_pos]
          cases members with
          | nil =>
              show (if (skipSpace (unit '\x7d' :: rest)).head? = some (unit '\x7d') then _ else _) = _
              rw [skipSpace_cons (by decide), List.head?_cons, if_pos rfl]
              rfl
          | cons member others =>
              obtain ⟨after, first⟩ := joinWith_members member others
              have read := readMembers_jsonMembers (member :: others) (by simp)
                ((Bool.and_eq_true _ _).mp plain).2 fuel rest (by omega)
              rw [first, List.cons_append] at read ⊢
              rw [skipSpace_cons (by decide), List.head?_cons, if_neg (by decide), read]
              split
              · rfl
              · rfl

private theorem readItems_jsonItems : ∀ (items : List Value), items ≠ [] →
    plainItems items = true → ∀ (fuel : Nat) (rest : JsString),
      2 * (joinWith (js ",") (jsonItems items)).length + 1 ≤ fuel →
        readItems admits fuel (joinWith (js ",") (jsonItems items) ++ unit ']' :: rest) =
          if everyItem admits items then some (items, rest) else none
  | [item], _, plain, fuel, rest, enough => by
      rw [plainItems, plainItems, Bool.and_true] at plain
      rw [jsonItems, jsonItems, joinWith_one] at enough ⊢
      obtain ⟨fuel, rfl⟩ := Nat.exists_eq_succ_of_ne_zero (by omega : fuel ≠ 0)
      have read := readValue_jsonText item plain fuel (unit ']' :: rest) (by omega)
        (follows_cons (by decide))
      rw [readItems, read, everyItem, everyItem, Bool.and_true]
      cases everyString admits item with
      | false => rfl
      | true =>
          simp only [if_pos, skipSpace_cons (by decide : isJsonSpace (unit ']') = false)]
  | item :: next :: more, _, plain, fuel, rest, enough => by
      rw [plainItems, Bool.and_eq_true] at plain
      have joined : joinWith (js ",") (jsonItems (item :: next :: more)) =
          jsonText item ++ unit ',' :: joinWith (js ",") (jsonItems (next :: more)) := by
        rw [jsonItems, jsonItems, joinWith_pair]
      rw [joined] at enough ⊢
      rw [List.length_append, List.length_cons] at enough
      obtain ⟨fuel, rfl⟩ := Nat.exists_eq_succ_of_ne_zero (by omega : fuel ≠ 0)
      have first := readValue_jsonText item plain.1 fuel
        (unit ',' :: (joinWith (js ",") (jsonItems (next :: more)) ++ unit ']' :: rest))
        (by omega) (follows_cons (by decide))
      have others := readItems_jsonItems (next :: more) (by simp) plain.2 fuel rest (by omega)
      rw [List.append_assoc, List.cons_append, readItems, first, everyItem]
      cases everyString admits item with
      | false => rfl
      | true =>
          simp only [if_pos, skipSpace_cons (by decide : isJsonSpace (unit ',') = false),
            if_neg (by decide : unit ',' ≠ unit ']'), others, Bool.true_and]
          split
          · rfl
          · rfl

private theorem readMembers_jsonMembers : ∀ (members : List (JsString × Value)), members ≠ [] →
    plainMembers members = true → ∀ (fuel : Nat) (rest : JsString),
      2 * (joinWith (js ",") (jsonMembers members)).length + 1 ≤ fuel →
        readMembers admits fuel (joinWith (js ",") (jsonMembers members) ++ unit '\x7d' :: rest) =
          if everyMember admits members then some (members, rest) else none
  | [(name, value)], _, plain, fuel, rest, enough => by
      rw [plainMembers, plainMembers, Bool.and_true] at plain
      rw [jsonMembers, jsonMembers, joinWith_one] at enough ⊢
      have length : (jsonString name ++ js ":" ++ jsonText value).length =
          (jsonString name).length + 1 + (jsonText value).length := by
        rw [List.length_append, List.length_append]
        rfl
      obtain ⟨fuel, rfl⟩ := Nat.exists_eq_add_of_le' (by omega : 2 ≤ fuel)
      have read := readMember_written name (readValue_jsonText value plain fuel
        (unit '\x7d' :: rest) (by omega) (follows_cons (by decide)))
      rw [readMembers, read, everyMember, everyMember, Bool.and_true]
      cases admits name && everyString admits value with
      | false => rfl
      | true =>
          simp only [if_pos, skipSpace_cons (by decide : isJsonSpace (unit '\x7d') = false)]
  | (name, value) :: next :: more, _, plain, fuel, rest, enough => by
      rw [plainMembers, Bool.and_eq_true] at plain
      have joined : joinWith (js ",") (jsonMembers ((name, value) :: next :: more)) =
          jsonString name ++ js ":" ++ jsonText value ++
            unit ',' :: joinWith (js ",") (jsonMembers (next :: more)) := by
        rw [jsonMembers, jsonMembers, joinWith_pair]
      have length : (jsonString name ++ js ":" ++ jsonText value).length =
          (jsonString name).length + 1 + (jsonText value).length := by
        rw [List.length_append, List.length_append]
        rfl
      rw [joined] at enough ⊢
      rw [List.length_append, List.length_cons] at enough
      obtain ⟨fuel, rfl⟩ := Nat.exists_eq_add_of_le' (by omega : 2 ≤ fuel)
      have first := readMember_written name (readValue_jsonText value plain.1 fuel
        (unit ',' :: (joinWith (js ",") (jsonMembers (next :: more)) ++ unit '\x7d' :: rest))
        (by omega) (follows_cons (by decide)))
      have others := readMembers_jsonMembers (next :: more) (by simp) plain.2 (fuel + 1)
        rest (by omega)
      rw [List.append_assoc, List.cons_append, readMembers, first, everyMember]
      cases admits name && everyString admits value with
      | false => rfl
      | true =>
          simp only [if_pos, skipSpace_cons (by decide : isJsonSpace (unit ',') = false),
            if_neg (by decide : unit ',' ≠ unit '\x7d'), others, Bool.true_and]
          split
          · rfl
          · rfl

end

/-- What `JSON.stringify` wrote of a plain value, read. -/
theorem readJson_jsonText {v : Value} (plain : isPlain v = true) :
    readJson admits (jsonText v) = if everyString admits v then some v else none := by
  have read : readValue admits (2 * (jsonText v).length) (jsonText v ++ []) =
      if everyString admits v then some (v, []) else none :=
    readValue_jsonText v plain _ [] le_rfl fun c first => by cases first
  rw [List.append_nil] at read
  rw [readJson, read]
  cases everyString admits v with
  | false => rfl
  | true => rfl

/-- The cast of what `JSON.stringify` wrote of a plain value. -/
theorem jsonbOf_jsonText {v : Value} (plain : isPlain v = true) :
    jsonbOf (jsonText v) = if everyString isCharacterText v then some v else none :=
  readJson_jsonText plain

mutual

private theorem keepLast_plain : ∀ (v : Value), isPlain v = true → keepLast v = v
  | .null, _ => rfl
  | .bool _, _ => rfl
  | .number _, _ => rfl
  | .nonFinite, _ => rfl
  | .string _, _ => rfl
  | .array items, plain => by
      rw [keepLast, keepLastItems_plain items plain]
  | .object members, plain => by
      rw [isPlain, Bool.and_eq_true, decide_eq_true_iff] at plain
      rw [keepLast, keepLastMembers_plain [] members plain.1 plain.2, List.nil_append]

private theorem keepLastItems_plain : ∀ (items : List Value), plainItems items = true →
    keepLastItems items = items
  | [], _ => rfl
  | item :: rest, plain => by
      rw [plainItems, Bool.and_eq_true] at plain
      rw [keepLastItems, keepLast_plain item plain.1, keepLastItems_plain rest plain.2]

private theorem keepLastMembers_plain : ∀ (kept members : List (JsString × Value)),
    ((kept ++ members).map Prod.fst).Nodup → plainMembers members = true →
      keepLastMembers kept members = kept ++ members
  | kept, [], _, _ => by rw [keepLastMembers, List.append_nil]
  | kept, (name, value) :: rest, once, plain => by
      rw [plainMembers, Bool.and_eq_true] at plain
      have absent : name ∉ kept.map Prod.fst := by
        intro present
        rw [List.map_append, List.nodup_append] at once
        exact once.2.2 name present name (List.mem_map_of_mem List.mem_cons_self) rfl
      rw [List.append_cons] at once ⊢
      rw [keepLastMembers, keepLast_plain value plain.1, setEntry_of_absent absent,
        keepLastMembers_plain _ rest once plain.2]

end

/-- `JSON.parse` of what `JSON.stringify` wrote of a plain value. -/
theorem parseJson_jsonText {v : Value} (plain : isPlain v = true) :
    parseJson (jsonText v) = some v := by
  rw [parseJson, readJson_jsonText plain, if_pos (everyString_true v), Option.map_some,
    keepLast_plain v plain]

end Assaybank.Library
