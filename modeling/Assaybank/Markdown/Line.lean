import Mathlib.Computability.RegularExpressions
import Assaybank.Markdown.Ast

/-!
Owns the line patterns of the block parser (`packages/markdown/src/block.ts`): what each
regular expression accepts, with its groups, and how a table row is split.

Contract: a pattern is its own function here, under the name it has in the source, and
`.` refuses the four line terminators, two of which can stand inside a line. The
delimiter row is the regular expression itself.
-/

namespace Assaybank.Markdown

open Assaybank.Runtime

/-- `^[ \t]*$`. -/
def BLANK (line : JsString) : Bool := line.all isBlankUnit

/-- The line after its indentation, which is at most three spaces. -/
def unindent (line : JsString) : Option JsString :=
  let indent := runLength line 0 (unit ' ')
  if indent ≤ 3 then some (line.drop indent) else none

/-- Whether `.` matches every unit. -/
def isOneLine (text : JsString) : Bool := text.all fun c => !isLineTerminator c

/-- `` ^ {0,3}(`{3,}|~{3,})[ \t]*([^`\n]*)$ ``: the first unit of the marker, and the info string. -/
def FENCE (line : JsString) : Option (CodeUnit × JsString) :=
  match unindent line with
  | none => none
  | some body =>
      match body with
      | [] => none
      | marker :: _ =>
          let length := runLength body 0 marker
          let info := (body.drop length).dropWhile isBlankUnit
          if (marker = unit '`' ∨ marker = unit '~') ∧ 3 ≤ length ∧
              (info.all fun c => c != unit '`' && c != unit '\n') then
            some (marker, info)
          else none

/-- `^ {0,3}(#{1,6})(?:[ \t]+(.*?))?[ \t]*$`: the level and the text. -/
def HEADING (line : JsString) : Option (Nat × JsString) :=
  match unindent line with
  | none => none
  | some body =>
      let level := runLength body 0 (unit '#')
      let rest := body.drop level
      let text := (rest.dropWhile isBlankUnit).rdropWhile isBlankUnit
      if 1 ≤ level ∧ level ≤ 6 ∧ (rest = [] ∨ rest.head?.any isBlankUnit) ∧ isOneLine text then
        some (level, text)
      else none

/-- `^ {0,3}([-*_])(?:[ \t]*\1){2,}[ \t]*$`. -/
def RULE (line : JsString) : Bool :=
  match unindent line with
  | none => false
  | some [] => false
  | some (marker :: rest) =>
      (marker == unit '-' || marker == unit '*' || marker == unit '_') &&
        (rest.all fun c => c == marker || isBlankUnit c) && decide (2 ≤ rest.count marker)

/-- `^ {0,3}> ?(.*)$`: what is quoted. -/
def QUOTE (line : JsString) : Option JsString :=
  match unindent line with
  | none => none
  | some [] => none
  | some (marker :: rest) =>
      let quoted := if rest.head? = some (unit ' ') then rest.tail else rest
      if marker = unit '>' ∧ isOneLine quoted then some quoted else none

/-- A list item's first line: the indentation before the marker, the width of the marker
with the blanks after it, the number it starts at, and its text. -/
structure ListMarker where
  indent : Nat
  width : Nat
  start : Nat
  content : JsString

/-- What follows a list marker of `width` units: blanks, then one line of text. -/
def listContent (indent width start : Nat) (rest : JsString) : Option ListMarker :=
  let blanks := (rest.takeWhile isBlankUnit).length
  let content := rest.drop blanks
  if 1 ≤ blanks ∧ isOneLine content then some ⟨indent, width + blanks, start, content⟩ else none

/-- `^( {0,3})([-*+])([ \t]+)(.*)$`. -/
def BULLET (line : JsString) : Option ListMarker :=
  match unindent line with
  | none => none
  | some [] => none
  | some (marker :: rest) =>
      if marker = unit '-' ∨ marker = unit '*' ∨ marker = unit '+' then
        listContent (runLength line 0 (unit ' ')) 1 1 rest
      else none

/-- `[.)]`. -/
def isOrderedMark (c : CodeUnit) : Bool := c == unit '.' || c == unit ')'

/-- `^( {0,3})(\d{1,9})([.)])([ \t]+)(.*)$`. -/
def ORDERED (line : JsString) : Option ListMarker :=
  match unindent line with
  | none => none
  | some body =>
      let digits := body.takeWhile isDigit
      match body.drop digits.length with
      | [] => none
      | mark :: rest =>
          if 1 ≤ digits.length ∧ digits.length ≤ 9 ∧ isOrderedMark mark then
            listContent (runLength line 0 (unit ' ')) (digits.length + 1) (parseDigits 10 digits)
              rest
          else none

/-- `^( {0,3})1[.)]([ \t]+)`: only `1.` may interrupt a paragraph. -/
def interruptsOrdered (line : JsString) : Bool :=
  match unindent line with
  | some (one :: mark :: blank :: _) => one == unit '1' && isOrderedMark mark && isBlankUnit blank
  | _ => false

/-- `^[a-z0-9][a-z0-9+#.-]*$`: a language name safe to interpolate into a class attribute. -/
def LANGUAGE (language : JsString) : Bool :=
  match language with
  | [] => false
  | first :: rest =>
      (isLower first || isDigit first) && rest.all fun c =>
        isLower c || isDigit c || c == unit '+' || c == unit '#' || c == unit '.' || c == unit '-'

/-- True when the line begins a block that a paragraph cannot absorb as a continuation. -/
def interruptsParagraph (line : JsString) : Bool :=
  (FENCE line).isSome || (HEADING line).isSome || RULE line || (QUOTE line).isSome ||
    (BULLET line).isSome || interruptsOrdered line

/-! ### Tables -/

/-- A pattern over code units. -/
abbrev Pattern := RegularExpression CodeUnit

/-- One literal unit. -/
def literal (c : Char) : Pattern := .char (unit c)

/-- `p?`. -/
def optional (p : Pattern) : Pattern := 1 + p

/-- `[ \t]*`. -/
def blanks : Pattern := .star (literal ' ' + literal '\t')

/-- `[ \t]*:?-+:?[ \t]*\|`. -/
def delimiterCell : Pattern :=
  blanks * optional (literal ':') * (literal '-' * .star (literal '-')) * optional (literal ':') *
    blanks * literal '|'

/-- `^ {0,3}\|?(?:[ \t]*:?-+:?[ \t]*\|)+[ \t]*:?-*:?[ \t]*\|?[ \t]*$`: the delimiter row of a
table. -/
def delimiterPattern : Pattern :=
  optional (literal ' ') * optional (literal ' ') * optional (literal ' ') *
    optional (literal '|') * (delimiterCell * .star delimiterCell) * blanks *
    optional (literal ':') * .star (literal '-') * optional (literal ':') * blanks *
    optional (literal '|') * blanks

def DELIMITER (line : JsString) : Bool := delimiterPattern.rmatch line

/-- The body of a row without its optional leading and trailing pipe: `trim`, then
`replace(/^\|/u, '')`, then `replace(/(?<!\\)\|[ \t]*$/u, '')`. -/
def rowBody (line : JsString) : JsString :=
  let trimmed := trim line
  let body := if trimmed.head? = some (unit '|') then trimmed.tail else trimmed
  let core := body.rdropWhile isBlankUnit
  if core.getLast? = some (unit '|') ∧ core.dropLast.getLast? ≠ some (unit '\\') then core.dropLast
  else body

/-- The loop of `splitRow`: the cells of what is left of a row, after the part of a cell
already read. -/
def splitCells : JsString → JsString → List JsString
  | [], cell => [trim cell]
  | [char], cell =>
      if char = unit '|' then [trim cell, trim []] else [trim (cell ++ [char])]
  | char :: next :: rest, cell =>
      if char = unit '\\' ∧ next = unit '|' then splitCells rest (cell ++ [unit '|'])
      else if char = unit '|' then trim cell :: splitCells (next :: rest) []
      else splitCells (next :: rest) (cell ++ [char])

/-- Splits a table row on unescaped pipes, discarding the optional leading and trailing one. -/
def splitRow (line : JsString) : List JsString := splitCells (rowBody line) []

def alignOf (cell : JsString) : Option ColumnAlign :=
  let left := decide (cell.head? = some (unit ':'))
  let right := decide (cell.getLast? = some (unit ':'))
  if left && right then some .center
  else if right then some .right
  else if left then some .left
  else none

/-- Whether a line and the line after it look like the top of a table. -/
def looksLikeTable (line next : JsString) : Bool := line.contains (unit '|') && DELIMITER next

/-! ### What a marker takes -/

theorem length_unindent {line body : JsString} (found : unindent line = some body) :
    body.length ≤ line.length := by
  unfold unindent at found
  simp only at found
  split at found
  · cases found
    simp
  · cases found

theorem length_listContent {indent width start : Nat} {rest : JsString} {marker : ListMarker}
    (found : listContent indent width start rest = some marker) :
    marker.content.length < rest.length := by
  unfold listContent at found
  simp only at found
  split at found
  · rename_i shape
    cases found
    have bound := List.IsPrefix.length_le (List.takeWhile_prefix isBlankUnit : rest.takeWhile _ <+: rest)
    simp only [List.length_drop]
    omega
  · cases found

/-- A quoted line loses its `>`. -/
theorem length_QUOTE {line quoted : JsString} (found : QUOTE line = some quoted) :
    quoted.length < line.length := by
  unfold QUOTE at found
  split at found
  · cases found
  · cases found
  rename_i marker rest shape
  have bound := length_unindent shape
  have tail : (if rest.head? = some (unit ' ') then rest.tail else rest).length ≤ rest.length := by
    split
    · simp
    · exact Nat.le_refl _
  simp only [List.length_cons] at bound
  simp only [Option.ite_none_right_eq_some, Option.some.injEq] at found
  rw [← found.2]
  omega

theorem length_BULLET {line : JsString} {marker : ListMarker} (found : BULLET line = some marker) :
    marker.content.length < line.length := by
  unfold BULLET at found
  split at found
  · cases found
  · cases found
  rename_i mark rest shape
  have bound := length_unindent shape
  simp only [List.length_cons] at bound
  split at found
  · have := length_listContent found
    omega
  · cases found

theorem length_ORDERED {line : JsString} {marker : ListMarker}
    (found : ORDERED line = some marker) : marker.content.length < line.length := by
  unfold ORDERED at found
  split at found
  · cases found
  rename_i body shape
  have bound := length_unindent shape
  simp only at found
  split at found
  · cases found
  rename_i mark rest dropped
  have split : body.length - (body.takeWhile isDigit).length = rest.length + 1 := by
    rw [← List.length_drop, dropped, List.length_cons]
  split at found
  · have := length_listContent found
    omega
  · cases found

end Assaybank.Markdown
