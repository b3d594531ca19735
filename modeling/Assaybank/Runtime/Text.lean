import Mathlib.Data.List.DropRight
import Mathlib.Data.List.Basic

/-!
Owns the JavaScript strings every other module reads: finite sequences of
16-bit code units, with the runtime's `trim`, `slice`, `indexOf`, `split` and
the character classes of its regular expressions. Nothing here knows the
repository.

A string is a list of code units and not of Unicode scalars, because the code
indexes by unit, measures length by unit, and receives unpaired surrogates.
-/

namespace Assaybank.Runtime

/-- One UTF-16 code unit, as `charCodeAt` returns it. -/
abbrev CodeUnit := UInt16

/-- A JavaScript string. -/
abbrev JsString := List CodeUnit

/-- One instance under a name, for all definitions that look for a string in a list. -/
instance : LawfulBEq JsString := inferInstanceAs (LawfulBEq (List CodeUnit))

/-- The code unit of a character of the basic multilingual plane. -/
def unit (c : Char) : CodeUnit := c.toNat.toUInt16

/-- A source literal as code units. -/
def js (literal : String) : JsString := literal.toList.map unit

/-! ### Character classes -/

/-- `\s` and the characters `trim` removes: ECMAScript white space and line terminators. -/
def isSpace (c : CodeUnit) : Bool :=
  (0x09 ≤ c && c ≤ 0x0D) || c == 0x20 || c == 0xA0 || c == 0x1680 ||
    (0x2000 ≤ c && c ≤ 0x200A) || c == 0x2028 || c == 0x2029 || c == 0x202F ||
    c == 0x205F || c == 0x3000 || c == 0xFEFF

/-- What `.` refuses and a multiline `^` follows. -/
def isLineTerminator (c : CodeUnit) : Bool :=
  c == 0x0A || c == 0x0D || c == 0x2028 || c == 0x2029

/-- `[ \t]`. -/
def isBlankUnit (c : CodeUnit) : Bool := c == unit ' ' || c == unit '\t'

/-- `[0-9]`, which is also `\d`. -/
def isDigit (c : CodeUnit) : Bool := unit '0' ≤ c && c ≤ unit '9'

/-- `[a-z]`. -/
def isLower (c : CodeUnit) : Bool := unit 'a' ≤ c && c ≤ unit 'z'

/-- `[A-Z]`. -/
def isUpper (c : CodeUnit) : Bool := unit 'A' ≤ c && c ≤ unit 'Z'

/-- `[a-zA-Z]`. -/
def isAlpha (c : CodeUnit) : Bool := isLower c || isUpper c

/-- `[0-9a-fA-F]`. -/
def isHexDigit (c : CodeUnit) : Bool :=
  isDigit c || (unit 'a' ≤ c && c ≤ unit 'f') || (unit 'A' ≤ c && c ≤ unit 'F')

/-- The upper half of a surrogate pair. -/
def isHighSurrogate (c : CodeUnit) : Bool := 0xD800 ≤ c && c ≤ 0xDBFF

/-- The lower half of a surrogate pair. -/
def isLowSurrogate (c : CodeUnit) : Bool := 0xDC00 ≤ c && c ≤ 0xDFFF

/-- `toLowerCase` on one ASCII unit. -/
def lowerAscii (c : CodeUnit) : CodeUnit := if isUpper c then c + 32 else c

/-- The numeric value of a digit of any base up to sixteen. -/
def digitValue (c : CodeUnit) : Nat :=
  if isDigit c then c.toNat - 48
  else if isLower c then c.toNat - 87
  else c.toNat - 55

/-- `Number.parseInt` on a run of digits. -/
def parseDigits (base : Nat) (digits : JsString) : Nat :=
  digits.foldl (fun value c => value * base + digitValue c) 0

/-! ### String operations -/

/-- `trimStart`. -/
def trimStart (s : JsString) : JsString := s.dropWhile isSpace

/-- `trimEnd`. -/
def trimEnd (s : JsString) : JsString := s.rdropWhile isSpace

/-- `trim`. -/
def trim (s : JsString) : JsString := trimEnd (trimStart s)

/-- `slice` between two non-negative positions. -/
def slice (s : JsString) (start stop : Nat) : JsString := (s.take stop).drop start

/-- `indexOf(needle, start)`, with `none` for `-1`. -/
def indexOf (s needle : JsString) (start : Nat) : Option Nat :=
  (List.range' start (s.length + 1 - start)).find? fun k => needle.isPrefixOf (s.drop k)

/-- How many units from position `i` on are `c`. -/
def runLength (s : JsString) (i : Nat) (c : CodeUnit) : Nat :=
  ((s.drop i).takeWhile (· == c)).length

/-- `split(separator)` for a one-unit separator. -/
def splitOn (separator : CodeUnit) (s : JsString) : List JsString := s.splitOn separator

/-- `join(separator)`. -/
def joinWith (separator : JsString) (parts : List JsString) : JsString :=
  separator.intercalate parts

/-- `replace(/\r\n?/gu, '\n')`. -/
def normaliseNewlines : JsString → JsString
  | [] => []
  | [c] => if c = unit '\r' then [unit '\n'] else [c]
  | c :: d :: rest =>
      if c = unit '\r' then
        if d = unit '\n' then unit '\n' :: normaliseNewlines rest
        else unit '\n' :: normaliseNewlines (d :: rest)
      else c :: normaliseNewlines (d :: rest)

/-- `split(needle).join(replacement)` for a non-empty needle: every occurrence, left to right. -/
def replaceAll (needle replacement : JsString) : JsString → JsString
  | [] => []
  | c :: rest =>
      if needle ≠ [] ∧ needle.isPrefixOf (c :: rest) then
        replacement ++ replaceAll needle replacement ((c :: rest).drop needle.length)
      else c :: replaceAll needle replacement rest
termination_by s => s.length
decreasing_by
  · rename_i found
    have positive : 0 < needle.length := List.length_pos_iff.mpr found.1
    simp only [List.length_drop, List.length_cons]
    omega
  · simp

/-! ### Lengths and positions -/

theorem indexOf_spec {s needle : JsString} {start found : Nat}
    (result : indexOf s needle start = some found) :
    start ≤ found ∧ found ≤ s.length ∧ needle <+: s.drop found := by
  unfold indexOf at result
  have range := List.mem_of_find?_eq_some result
  have holds := List.find?_some result
  simp only [List.mem_range'_1] at range
  refine ⟨range.1, by omega, ?_⟩
  simpa using holds

theorem runLength_pos {s : JsString} {i : Nat} {c : CodeUnit} (here : s[i]? = some c) :
    0 < runLength s i c := by
  obtain ⟨inside, value⟩ := List.getElem?_eq_some_iff.mp here
  unfold runLength
  rw [List.drop_eq_getElem_cons inside, value]
  simp

/-- There is nothing to trim where nothing is white space. -/
theorem trim_of_visible {s : JsString} (visible : ∀ c ∈ s, isSpace c = false) :
    trim s = s := by
  have start : trimStart s = s := by
    unfold trimStart
    rw [List.dropWhile_eq_self_iff]
    intro positive
    simp [visible _ (List.getElem_mem positive)]
  rw [trim, start, trimEnd, List.rdropWhile_eq_self_iff]
  intro positive
  simp [visible _ (List.getLast_mem positive)]

end Assaybank.Runtime
