import Assaybank.Markdown.Ast

/-!
Owns the search for raw HTML in a prompt (`packages/markdown/src/raw-html.ts`): code is
blanked out, and every tag, comment, declaration or processing instruction left is
reported with its line.

Its regular expressions are written out as what they accept: the first position, and at
that position the alternative the engine settles on after backtracking.
-/

namespace Assaybank.Markdown

open Assaybank.Runtime

/-- How much of an offending fragment is worth showing. -/
def FRAGMENT_LIMIT : Nat := 80

/-- `text.replace(/[^\n]/gu, ' ')`: a surrogate pair is one character, so it becomes one space. -/
def blank : JsString → JsString
  | [] => []
  | [c] => [if c = unit '\n' then c else unit ' ']
  | c :: d :: rest =>
      if c = unit '\n' then c :: blank (d :: rest)
      else if isHighSurrogate c ∧ isLowSurrogate d then unit ' ' :: blank rest
      else unit ' ' :: blank (d :: rest)

/-! ### Fences -/

/-- A match of the fence expression, whose `^` stands at the start of `rest`: its marker and
its length. -/
def fenceAt (rest : JsString) : Option (CodeUnit × Nat) :=
  let indent := (rest.takeWhile (· == unit ' ')).length
  let body := rest.drop indent
  let length := (rest.takeWhile (· != unit '\n')).length
  if indent ≤ 3 ∧ (3 ≤ runLength body 0 (unit '`')) then some (unit '`', length)
  else if indent ≤ 3 ∧ 3 ≤ runLength body 0 (unit '~') then some (unit '~', length)
  else none

/-- The fence lines of a source with their positions. `lineStart` says whether the
multiline `^` holds at `position`. -/
def fenceLines (rest : JsString) (position : Nat) (lineStart : Bool) :
    List (Nat × CodeUnit × Nat) :=
  match rest with
  | [] => []
  | c :: tail =>
      match if lineStart then fenceAt (c :: tail) else none with
      | some (marker, length) =>
          (position, marker, length) ::
            fenceLines (tail.drop (length - 1)) (position + (length - 1) + 1) false
      | none => fenceLines tail (position + 1) (isLineTerminator c)
termination_by rest.length
decreasing_by all_goals simp; try omega

/-- Pairs each opening fence with the next fence of its marker. An unclosed fence runs to the
end of the document. -/
def fenceSpans (stop : Nat) : Option (Nat × CodeUnit) → List (Nat × CodeUnit × Nat) → List (Nat × Nat)
  | none, [] => []
  | some (start, _), [] => [(start, stop)]
  | none, (start, marker, _) :: rest => fenceSpans stop (some (start, marker)) rest
  | some (start, marker), (position, closing, length) :: rest =>
      if closing = marker then (start, position + length) :: fenceSpans stop none rest
      else fenceSpans stop (some (start, marker)) rest

/-- Blanks the given spans of a source, from `index` on. -/
def blankSpans (source : JsString) (index : Nat) : List (Nat × Nat) → JsString
  | [] => source.drop index
  | (start, stop) :: rest =>
      slice source index start ++ blank (slice source start stop) ++ blankSpans source stop rest

/-! ### Code spans -/

/-- The end of the code span that opens at the start of `rest`, for the longest run of at
most `length` backticks that is met again. -/
def codeSpanEnd (rest : JsString) : Nat → Option Nat
  | 0 => none
  | length + 1 =>
      match indexOf rest (List.replicate (length + 1) (unit '`')) (length + 1) with
      | some close => some (close + (length + 1))
      | none => codeSpanEnd rest length

/-- Blanks inline code spans, left to right. -/
def blankCodeSpans (rest : JsString) : JsString :=
  match rest with
  | [] => []
  | c :: tail =>
      match codeSpanEnd (c :: tail) (runLength (c :: tail) 0 (unit '`')) with
      | some stop => blank ((c :: tail).take stop) ++ blankCodeSpans (tail.drop (stop - 1))
      | none => c :: blankCodeSpans tail
termination_by rest.length
decreasing_by all_goals simp; try omega

/-- Blanks out code spans and fenced code blocks. -/
def maskCode (source : JsString) : JsString :=
  let spans := fenceSpans source.length none (fenceLines source 0 true)
  blankCodeSpans (blankSpans source 0 spans)

/-! ### Tags -/

/-- `\/?[a-zA-Z][a-zA-Z0-9-]*(?:\s[^<>]*)?\/?>` after a `<`: the length it takes. -/
def tagAt (rest : JsString) : Option Nat :=
  let slash := if rest.head? = some (unit '/') then 1 else 0
  let body := rest.drop slash
  if (body.head?.any isAlpha) then
    let name := (body.takeWhile fun c => isAlpha c || isDigit c || c == unit '-').length
    let after := body.drop name
    if after.head?.any isSpace then
      let inner := (after.takeWhile fun c => c != unit '<' && c != unit '>').length
      if after[inner]? = some (unit '>') then some (slash + name + inner + 1) else none
    else if (js "/>").isPrefixOf after then some (slash + name + 2)
    else if (js ">").isPrefixOf after then some (slash + name + 1)
    else none
  else none

/-- The first end of a comment, `--!?>`, at or after `position`. -/
def commentEnd : JsString → Nat → Option Nat
  | [], _ => none
  | c :: rest, position =>
      if (js "-->").isPrefixOf (c :: rest) then some (position + 3)
      else if (js "--!>").isPrefixOf (c :: rest) then some (position + 4)
      else commentEnd rest (position + 1)

/-- `![^<>]*>` after a `<`. -/
def declarationAt (rest : JsString) : Option Nat :=
  if rest.head? = some (unit '!') then
    let inner := (rest.takeWhile fun c => c != unit '<' && c != unit '>').length
    if rest[inner]? = some (unit '>') then some (inner + 1) else none
  else none

/-- `\?[\s\S]*?\?>` after a `<`. -/
def instructionAt (rest : JsString) : Option Nat :=
  if rest.head? = some (unit '?') then (indexOf rest (js "?>") 1).map (· + 2) else none

/-- `!--[\s\S]*?--!?>` after a `<`. -/
def commentAt (rest : JsString) : Option Nat :=
  if (js "!--").isPrefixOf rest then commentEnd (rest.drop 3) 3 else none

/-- The length of the HTML-like fragment that starts here. -/
def htmlLikeAt (rest : JsString) : Option Nat :=
  match rest with
  | [] => none
  | c :: tail =>
      if c = unit '<' then
        ((tagAt tail).or ((commentAt tail).or ((declarationAt tail).or (instructionAt tail)))).map
          (· + 1)
      else none

/-- Every HTML-like fragment of a masked source: its position and length. -/
def htmlMatches (rest : JsString) (position : Nat) : List (Nat × Nat) :=
  match rest with
  | [] => []
  | c :: tail =>
      match htmlLikeAt (c :: tail) with
      | some length =>
          (position, length) :: htmlMatches (tail.drop (length - 1)) (position + (length - 1) + 1)
      | none => htmlMatches tail (position + 1)
termination_by rest.length
decreasing_by all_goals simp; try omega

/-- The finding reported for one match. -/
def rawHtmlFinding (source : JsString) (start length : Nat) : RawHtmlFinding :=
  let fragment := slice source start (start + length)
  { fragment :=
      if FRAGMENT_LIMIT < fragment.length then fragment.take FRAGMENT_LIMIT ++ js "…" else fragment
    line := (splitOn (unit '\n') (slice source 0 start)).length }

/-- Every raw-HTML fragment in the source, outside code, with the line it is on. -/
def findRawHtml (source : JsString) : List RawHtmlFinding :=
  (htmlMatches (maskCode source) 0).map fun found => rawHtmlFinding source found.1 found.2

/-- A reported fragment is cut at the limit and stands on a line counted from one. -/
theorem findRawHtml_bounded {source : JsString} {finding : RawHtmlFinding}
    (member : finding ∈ findRawHtml source) :
    finding.fragment.length ≤ FRAGMENT_LIMIT + 1 ∧ 1 ≤ finding.line := by
  obtain ⟨found, _, rfl⟩ := List.mem_map.mp member
  constructor
  · unfold rawHtmlFinding
    simp only
    split
    · rw [List.length_append, List.length_take]
      exact Nat.add_le_add (Nat.min_le_left _ _) (Nat.le_refl 1)
    · omega
  · have nonempty : splitOn (unit '\n') (slice source 0 found.1) ≠ [] := List.splitOn_ne_nil _ _
    exact List.length_pos_iff.mpr nonempty

end Assaybank.Markdown
