import Assaybank.Markdown.Url

/-!
Owns the inline scan (`packages/markdown/src/inline.ts`): which construct starts at a
position (`stepAt`), and the fold of those constructs into nodes (`parseInline`).

Contract: every step moves past the position it was taken at, and a construct whose
inside is parsed again has an inside shorter than the source. The scan is a total
function because of these two facts.

It does not own the character tables. Whether a unit is a letter or a number, and how a
fence language is lower-cased, are fields of `Unicode`, and every result holds for all of them.
-/

namespace Assaybank.Markdown

open Assaybank.Runtime

/-- The Unicode tables of the runtime the parser reads. -/
structure Unicode where
  /-- `/[\p{L}\p{N}]/u` on one code unit. -/
  isLetterOrNumber : CodeUnit → Bool
  /-- `toLowerCase`. -/
  toLowerCase : JsString → JsString

/-- Characters a backslash may escape, per CommonMark. -/
def ESCAPABLE : JsString := js "\\`*_\x7b\x7d[]()#+-.!|<>~\"'&$%,/:;=?@^"

mutual

/-- Flattens one node to its text. -/
def Inline.textOf : Inline → JsString
  | .text value => value
  | .code value => value
  | .strong children => Markdown.textOf children
  | .emphasis children => Markdown.textOf children
  | .link _ children => Markdown.textOf children
  | .image _ alt => alt
  | .lineBreak => js " "

/-- Flattens a node tree to its text, for the label on a rejected-URL diagnostic. -/
def textOf : List Inline → JsString
  | [] => []
  | node :: rest => node.textOf ++ Markdown.textOf rest

end

/-- Appends to the trailing text node if there is one, so the output has no adjacent runs. -/
def pushText (out : List Inline) (value : JsString) : List Inline :=
  if value = [] then out
  else
    match out.getLast? with
    | some (.text last) => out.dropLast ++ [.text (last ++ value)]
    | _ => out ++ [.text value]

/-! ### Delimiters -/

/-- The scan of `closingBracket` over what is left of the source, at position `i`. -/
def closingBracketFrom : JsString → Nat → Int → Option Nat
  | [], _, _ => none
  | char :: rest, i, depth =>
      if char = unit '\\' then
        match rest with
        | [] => none
        | _ :: after => closingBracketFrom after (i + 2) depth
      else if char = unit '[' then closingBracketFrom rest (i + 1) (depth + 1)
      else if char = unit ']' then
        if depth - 1 = 0 then some i else closingBracketFrom rest (i + 1) (depth - 1)
      else closingBracketFrom rest (i + 1) depth

/-- The `]` that closes the `[` at `start`, respecting nesting and escapes. -/
def closingBracket (src : JsString) (start : Nat) : Option Nat :=
  closingBracketFrom (src.drop start) start 0

/-- The loop of `readDestination` over what is left of the source, at position `i`. -/
def readDestinationFrom (rest : JsString) (i : Nat) (depth : Int) (dest : JsString)
    (inTitle : Option CodeUnit) : Option (JsString × Nat) :=
  match rest with
  | [] => none
  | char :: after =>
      if char = unit '\\' ∧ after ≠ [] then
        let next := after.headD 0
        let escaped := if next ∈ ESCAPABLE then [next] else [unit '\\', next]
        readDestinationFrom after.tail (i + 2) depth
          (if inTitle = none then dest ++ escaped else dest) inTitle
      else if inTitle ≠ none then
        readDestinationFrom after (i + 1) depth dest (if inTitle = some char then none else inTitle)
      else if char = unit '"' ∨ char = unit '\'' then
        readDestinationFrom after (i + 1) depth dest (some char)
      else if char = unit ')' ∧ depth - 1 = 0 then some (trim dest, i + 1)
      else if char = unit '\n' then none
      else
        let depth :=
          if char = unit '(' then depth + 1 else if char = unit ')' then depth - 1 else depth
        readDestinationFrom after (i + 1) depth (dest ++ [char]) none
termination_by rest.length
decreasing_by all_goals simp_all; try omega

/-- Reads the `(destination "title")` after a link label: the destination, and the
position after the closing parenthesis. -/
def readDestination (src : JsString) (start : Nat) : Option (JsString × Nat) :=
  if src[start]? = some (unit '(') then
    readDestinationFrom (src.drop (start + 1)) (start + 1) 1 [] none
  else none

/-- `/\s/u.test(src[i])`, false past the end. -/
def isSpaceAt (src : JsString) (i : Nat) : Bool := src[i]?.any isSpace

/-- The width of an emphasis delimiter: two for strong, one for emphasis. -/
def markerWidth (strong : Bool) : Nat := if strong then 2 else 1

theorem markerWidth_pos (strong : Bool) : 0 < markerWidth strong := by
  cases strong <;> simp [markerWidth]

/-- Whether the delimiter found at `found` closes the span. -/
def emphasisCloses (unicode : Unicode) (src : JsString) (marker : CodeUnit) (length found : Nat) :
    Bool :=
  let before := if found = 0 then none else src[found - 1]?
  let after := src[found + length]?
  !before.any isSpace && before != some marker &&
    (marker != unit '_' || !after.any unicode.isLetterOrNumber)

/-- The loop of `emphasisRun`. -/
def emphasisClose (unicode : Unicode) (src : JsString) (marker : CodeUnit) (strong : Bool)
    (i : Nat) : Option Nat :=
  let length := markerWidth strong
  if i < src.length then
    match _found : indexOf src (List.replicate length marker) i with
    | none => none
    | some position =>
        -- A longer run of the same marker is not this delimiter.
        if src[position + length]? = some marker ∧ marker ≠ unit '_' then
          emphasisClose unicode src marker strong (position + length + 1)
        else if emphasisCloses unicode src marker length position then some position
        else emphasisClose unicode src marker strong (position + length)
  else none
termination_by src.length - i
decreasing_by
  all_goals
    have := (indexOf_spec _found).1
    have := markerWidth_pos strong
    omega

/-- The position of the delimiter that closes the emphasis opened at `start`. -/
def emphasisRun (unicode : Unicode) (src : JsString) (start : Nat) (marker : CodeUnit)
    (strong : Bool) : Option Nat :=
  let length := markerWidth strong
  if src[start + length]? = none ∨ isSpaceAt src (start + length) then none
  else if marker = unit '_' ∧ start ≠ 0 ∧ src[start - 1]?.any unicode.isLetterOrNumber then none
  else emphasisClose unicode src marker strong (start + length)

/-- The search for the run of exactly `length` backticks that closes a code span. -/
def codeClose (src : JsString) (length search : Nat) : Option Nat :=
  if search < src.length then
    match _found : indexOf src (List.replicate length (unit '`')) search with
    | none => none
    | some position =>
        if _more : src[position + length]? = some (unit '`') then
          codeClose src length (position + length + runLength src (position + length) (unit '`'))
        else some position
  else none
termination_by src.length - search
decreasing_by
  have := (indexOf_spec _found).1
  have := runLength_pos _more
  omega

/-- The text of a code span: one space is stripped from each end when both are present,
and a line feed is a space. -/
def codeValue (raw : JsString) : JsString :=
  let stripped :=
    if 2 < raw.length ∧ raw.head? = some (unit ' ') ∧ raw.getLast? = some (unit ' ') ∧
        trim raw ≠ [] then
      slice raw 1 (raw.length - 1)
    else raw
  stripped.map fun c => if c = unit '\n' then unit ' ' else c

/-! ### One position -/

/-- What the scan finds at one position, with the position it goes on from. -/
inductive Step where
  | text (value : JsString) (next : Nat)
  /-- A trailing backslash. -/
  | escapedBreak (next : Nat)
  /-- A line feed after two trailing spaces. -/
  | hardBreak (next : Nat)
  | code (value : JsString) (next : Nat)
  | image (label dest : JsString) (next : Nat)
  | link (label dest : JsString) (next : Nat)
  | autolink (body : JsString) (next : Nat)
  | emphasis (strong : Bool) (inner : JsString) (next : Nat)

/-- Where the scan goes on. -/
def Step.next : Step → Nat
  | .text _ next => next
  | .escapedBreak next => next
  | .hardBreak next => next
  | .code _ next => next
  | .image _ _ next => next
  | .link _ _ next => next
  | .autolink _ next => next
  | .emphasis _ _ next => next

/-- The source a step parses again, if any. -/
def Step.inside : Step → Option JsString
  | .link label _ _ => some label
  | .emphasis _ inner _ => some inner
  | _ => none

/-- A bracketed label at `start` and the destination after it: the label, the destination
and the position after it. -/
def labelAndDestination (src : JsString) (start : Nat) : Option (JsString × JsString × Nat) :=
  match closingBracket src start with
  | none => none
  | some close =>
      match readDestination src (close + 1) with
      | none => none
      | some (dest, stop) => some (slice src (start + 1) close, dest, stop)

/-- The body of an autolink that opens at `i`, and the position after it. -/
def autolinkAt (src : JsString) (i : Nat) : Option (JsString × Nat) :=
  match indexOf src (js ">") i with
  | none => none
  | some close =>
      let body := slice src (i + 1) close
      if body ≠ [] ∧ (body.all fun c => !isSpace c && c != unit '<') ∧ scheme body ≠ none then
        some (body, close + 1)
      else none

/-- A backslash: a break before a line feed, the character it escapes, or itself. -/
def escapeStep (src : JsString) (i : Nat) : Step :=
  match src[i + 1]? with
  | none => .text [unit '\\'] (i + 1)
  | some next =>
      if next = unit '\n' then .escapedBreak (i + 2)
      else if next ∈ ESCAPABLE then .text [next] (i + 2)
      else .text [unit '\\'] (i + 1)

/-- A run of backticks: a code span, or the run itself. -/
def backtickStep (src : JsString) (i : Nat) : Step :=
  let length := runLength src i (unit '`')
  match codeClose src length (i + length) with
  | some close => .code (codeValue (slice src (i + length) close)) (close + length)
  | none => .text (List.replicate length (unit '`')) (i + length)

/-- A run of `*` or `_`: an emphasis span, or the run itself. -/
def emphasisStep (unicode : Unicode) (src : JsString) (i : Nat) (char : CodeUnit) : Step :=
  let length := runLength src i char
  let strong := decide (2 ≤ length)
  match emphasisRun unicode src i char strong with
  | some close =>
      .emphasis strong (slice src (i + markerWidth strong) close) (close + markerWidth strong)
  | none => .text (List.replicate length char) (i + length)

/-- What stands at position `i`, whose unit is `char`. -/
def stepAt (unicode : Unicode) (src : JsString) (i : Nat) (char : CodeUnit) : Step :=
  if char = unit '\\' then escapeStep src i
  else if char = unit '`' then backtickStep src i
  else if char = unit '!' ∧ src[i + 1]? = some (unit '[') then
    match labelAndDestination src (i + 1) with
    | some (label, dest, stop) => .image label dest stop
    | none => .text [char] (i + 1)
  else if char = unit '[' then
    match labelAndDestination src i with
    | some (label, dest, stop) => .link label dest stop
    | none => .text [char] (i + 1)
  else if char = unit '<' then
    match autolinkAt src i with
    | some (body, stop) => .autolink body stop
    | none => .text [char] (i + 1)
  else if char = unit '*' ∨ char = unit '_' then emphasisStep unicode src i char
  else if char = unit '\n' then
    if (js "  ").isSuffixOf (slice src 0 i) then .hardBreak (i + 1) else .text (js " ") (i + 1)
  else .text [char] (i + 1)

/-! ### Progress of one step -/

private theorem closingBracketFrom_ge {rest : JsString} {i : Nat} {depth : Int} {close : Nat}
    (found : closingBracketFrom rest i depth = some close) : i ≤ close := by
  fun_induction closingBracketFrom rest i depth with
  | case1 => cases found
  | case2 => cases found
  | case3 _ _ _ _ inductionHypothesis => have := inductionHypothesis found; omega
  | case4 _ _ _ _ inductionHypothesis => have := inductionHypothesis found; omega
  | case5 => cases found; exact Nat.le_refl _
  | case6 _ _ _ _ _ _ inductionHypothesis => have := inductionHypothesis found; omega
  | case7 _ _ _ _ _ _ _ inductionHypothesis => have := inductionHypothesis found; omega

private theorem readDestinationFrom_gt {rest : JsString} {i : Nat} {depth : Int} {dest : JsString}
    {inTitle : Option CodeUnit} {text : JsString} {stop : Nat}
    (found : readDestinationFrom rest i depth dest inTitle = some (text, stop)) : i < stop := by
  fun_induction readDestinationFrom rest i depth dest inTitle with
  | case1 => cases found
  | case2 _ _ _ _ _ _ _ _ _ inductionHypothesis => have := inductionHypothesis found; omega
  | case3 _ _ _ _ _ _ _ _ inductionHypothesis => have := inductionHypothesis found; omega
  | case4 _ _ _ _ _ _ _ _ _ inductionHypothesis => have := inductionHypothesis found; omega
  | case5 => cases found; omega
  | case6 => cases found
  | case7 _ _ _ _ _ _ _ _ _ _ _ _ inductionHypothesis =>
      have := inductionHypothesis found
      omega

private theorem labelAndDestination_spec {src : JsString} {start : Nat} {label dest : JsString}
    {stop : Nat} (found : labelAndDestination src start = some (label, dest, stop)) :
    start < stop ∧ ∃ close, label = slice src (start + 1) close := by
  unfold labelAndDestination at found
  split at found
  · cases found
  rename_i close closes
  split at found
  · cases found
  rename_i text position reads
  cases found
  have bracket := closingBracketFrom_ge closes
  unfold readDestination at reads
  split at reads
  · have := readDestinationFrom_gt reads
    exact ⟨by omega, close, rfl⟩
  · cases reads

private theorem emphasisClose_ge {unicode : Unicode} {src : JsString} {marker : CodeUnit}
    {strong : Bool} {i close : Nat} (found : emphasisClose unicode src marker strong i = some close) :
    i ≤ close := by
  fun_induction emphasisClose unicode src marker strong i with
  | case1 => cases found
  | case2 _ _ _ position result _ inductionHypothesis =>
      have := (indexOf_spec result).1
      have := inductionHypothesis found
      omega
  | case3 _ _ _ position result => cases found; exact (indexOf_spec result).1
  | case4 _ _ _ position result _ _ inductionHypothesis =>
      have := (indexOf_spec result).1
      have := inductionHypothesis found
      omega
  | case5 => cases found

private theorem codeClose_ge {src : JsString} {length search close : Nat}
    (found : codeClose src length search = some close) : search ≤ close := by
  fun_induction codeClose src length search with
  | case1 => cases found
  | case2 _ _ position result _ inductionHypothesis =>
      have := (indexOf_spec result).1
      have := inductionHypothesis found
      omega
  | case3 _ _ position result => cases found; exact (indexOf_spec result).1
  | case4 => cases found

private theorem autolinkAt_gt {src : JsString} {i : Nat} {body : JsString} {stop : Nat}
    (found : autolinkAt src i = some (body, stop)) : i < stop := by
  unfold autolinkAt at found
  split at found
  · cases found
  rename_i close closes
  have := (indexOf_spec closes).1
  simp only at found
  split at found
  · cases found; omega
  · cases found

private theorem emphasisRun_ge {unicode : Unicode} {src : JsString} {start : Nat}
    {marker : CodeUnit} {strong : Bool} {close : Nat}
    (found : emphasisRun unicode src start marker strong = some close) : start ≤ close := by
  unfold emphasisRun at found
  simp only at found
  split at found
  · cases found
  split at found
  · cases found
  · have := emphasisClose_ge found
    omega

private theorem escapeStep_next (src : JsString) (i : Nat) : i < (escapeStep src i).next := by
  unfold escapeStep
  repeat' split
  all_goals simp [Step.next]

private theorem backtickStep_next {src : JsString} {i : Nat} (here : src[i]? = some (unit '`')) :
    i < (backtickStep src i).next := by
  have positive := runLength_pos here
  unfold backtickStep
  simp only
  split
  · rename_i close closes
    have := codeClose_ge closes
    simp only [Step.next]
    omega
  · simp only [Step.next]
    omega

private theorem emphasisStep_next (unicode : Unicode) {src : JsString} {i : Nat} {char : CodeUnit}
    (here : src[i]? = some char) : i < (emphasisStep unicode src i char).next := by
  have positive := runLength_pos here
  unfold emphasisStep
  simp only
  split
  · rename_i close closes
    have := emphasisRun_ge closes
    have := markerWidth_pos (decide (2 ≤ runLength src i char))
    simp only [Step.next]
    omega
  · simp only [Step.next]
    omega

/-- Every step moves past the position it was taken at. -/
theorem stepAt_next (unicode : Unicode) {src : JsString} {i : Nat} {char : CodeUnit}
    (here : src[i]? = some char) : i < (stepAt unicode src i char).next := by
  unfold stepAt
  split
  · exact escapeStep_next src i
  split
  · rename_i backtick
    exact backtickStep_next (backtick ▸ here)
  split
  · split
    · rename_i found
      have := (labelAndDestination_spec found).1
      simp only [Step.next]
      omega
    · simp [Step.next]
  split
  · split
    · rename_i found
      exact (labelAndDestination_spec found).1
    · simp [Step.next]
  split
  · split
    · rename_i found
      exact autolinkAt_gt found
    · simp [Step.next]
  split
  · exact emphasisStep_next unicode here
  split
  · split <;> simp [Step.next]
  · simp [Step.next]

private theorem length_slice_lt {src : JsString} {start stop : Nat} (positive : 0 < start)
    (nonempty : 0 < src.length) : (slice src start stop).length < src.length := by
  simp only [slice, List.length_drop, List.length_take]
  omega

/-- What a step parses again is shorter than the source. -/
theorem stepAt_inside (unicode : Unicode) {src : JsString} {i : Nat} {char : CodeUnit}
    {inner : JsString} (here : src[i]? = some char)
    (parsed : (stepAt unicode src i char).inside = some inner) : inner.length < src.length := by
  have nonempty : 0 < src.length := by
    obtain ⟨inside, _⟩ := List.getElem?_eq_some_iff.mp here
    omega
  unfold stepAt escapeStep backtickStep emphasisStep at parsed
  simp only at parsed
  repeat' split at parsed
  all_goals simp only [Step.inside, reduceCtorEq] at parsed
  · rename_i found
    simp only [Option.some.injEq] at parsed
    obtain ⟨close, shape⟩ := (labelAndDestination_spec found).2
    rw [← parsed, shape]
    exact length_slice_lt (Nat.succ_pos _) nonempty
  · simp only [Option.some.injEq] at parsed
    rw [← parsed]
    exact length_slice_lt (Nat.add_pos_right _ (markerWidth_pos _)) nonempty

/-- What a step parses again is a stretch of the source. -/
theorem stepAt_inside_slice (unicode : Unicode) {src : JsString} {i : Nat} {char : CodeUnit}
    {inner : JsString} (parsed : (stepAt unicode src i char).inside = some inner) :
    ∃ start stop, inner = slice src start stop := by
  unfold stepAt escapeStep backtickStep emphasisStep at parsed
  simp only at parsed
  repeat' split at parsed
  all_goals simp only [Step.inside, reduceCtorEq] at parsed
  · rename_i found
    simp only [Option.some.injEq] at parsed
    obtain ⟨close, shape⟩ := (labelAndDestination_spec found).2
    exact ⟨_, _, parsed.symm.trans shape⟩
  · simp only [Option.some.injEq] at parsed
    exact ⟨_, _, parsed.symm⟩

/-- The body of an autolink is not empty. -/
theorem stepAt_autolink {unicode : Unicode} {src : JsString} {i : Nat} {char : CodeUnit}
    {body : JsString} {next : Nat} (found : stepAt unicode src i char = .autolink body next) :
    body ≠ [] := by
  unfold stepAt escapeStep backtickStep emphasisStep at found
  simp only at found
  repeat' split at found
  all_goals first
    | (simp only [reduceCtorEq] at found)
    | skip
  rename_i reads
  cases found
  unfold autolinkAt at reads
  split at reads
  · cases reads
  · simp only at reads
    split at reads
    · rename_i filled
      cases reads
      exact filled.1
    · cases reads

/-- A hard break is two spaces and a line feed. -/
theorem stepAt_hardBreak {unicode : Unicode} {src : JsString} {i : Nat} {char : CodeUnit}
    {next : Nat} (here : src[i]? = some char) (found : stepAt unicode src i char = .hardBreak next) :
    js "  \n" <:+: src := by
  unfold stepAt escapeStep backtickStep emphasisStep at found
  simp only at found
  repeat' split at found
  all_goals first
    | (simp only [reduceCtorEq] at found)
    | skip
  rename_i feed spaces
  obtain ⟨before, ends⟩ := List.isSuffixOf_iff_suffix.mp spaces
  obtain ⟨inside, same⟩ := List.getElem?_eq_some_iff.mp here
  have joined : js "  \n" = js "  " ++ [unit '\n'] := by decide
  refine ⟨before, src.drop (i + 1), ?_⟩
  calc before ++ js "  \n" ++ src.drop (i + 1)
      = (before ++ js "  ") ++ unit '\n' :: src.drop (i + 1) := by
        rw [joined, List.append_assoc, List.append_assoc, List.append_assoc]
        rfl
    _ = src.take i ++ src.drop i := by
        rw [ends, ← feed, ← same, ← List.drop_eq_getElem_cons inside]
        rfl
    _ = src := List.take_append_drop i src

/-! ### The scan -/

/-- Strips the spaces before a hard break from the text nodes at the end, given last node
first: a node left empty goes, and the strip goes on in the one before it. -/
def stripTrailing : List Inline → List Inline
  | .text value :: rest =>
      let trimmed := value.rdropWhile (· == unit ' ')
      if trimmed = [] then stripTrailing rest else .text trimmed :: rest
  | out => out

/-- The nodes before a hard break, without the spaces that made it one. -/
def trimHardBreak (out : List Inline) : List Inline := (stripTrailing out.reverse).reverse

/-- The size that decreases from a scan to the scans inside it and to its next position. -/
@[irreducible] def scanMeasure (src : JsString) (i : Nat) : Nat :=
  src.length * (src.length + 1) + (src.length - i)

theorem scanMeasure_next {src : JsString} {i next : Nat} (inside : i < src.length)
    (later : i < next) : scanMeasure src next < scanMeasure src i := by
  unfold scanMeasure
  omega

theorem scanMeasure_inside {src inner : JsString} {i : Nat} (shorter : inner.length < src.length) :
    scanMeasure inner 0 < scanMeasure src i := by
  unfold scanMeasure
  calc
    inner.length * (inner.length + 1) + (inner.length - 0)
        < (inner.length + 1) * (inner.length + 1 + 1) := by
          rw [Nat.succ_mul inner.length (inner.length + 1 + 1), Nat.mul_succ inner.length (inner.length + 1)]
          omega
    _ ≤ src.length * (src.length + 1) := Nat.mul_le_mul shorter (by omega)
    _ ≤ src.length * (src.length + 1) + (src.length - i) := Nat.le_add_right _ _

/-- What one step adds to the nodes and to the refused destinations. `children` are the
nodes of the step's inside, which have been parsed by then. A refused destination loses its
link and keeps its words. -/
def emit (step : Step) (children out : List Inline) (rejected : List RejectedUrl) :
    List Inline × List RejectedUrl :=
  match step with
  | .text value _ => (pushText out value, rejected)
  | .escapedBreak _ => (out ++ [.lineBreak], rejected)
  | .hardBreak _ => (trimHardBreak out ++ [.lineBreak], rejected)
  | .code value _ => (out ++ [.code value], rejected)
  | .image label dest _ =>
      match safeUrl dest with
      | none => (pushText out label, rejected ++ [⟨dest, label⟩])
      | some href => (out ++ [.image href label], rejected)
  | .link _ dest _ =>
      match safeUrl dest with
      | none => (out ++ children, rejected ++ [⟨dest, textOf children⟩])
      | some href => (out ++ [.link href children], rejected)
  | .autolink body _ =>
      match safeUrl body with
      | none => (pushText out body, rejected ++ [⟨body, body⟩])
      | some href => (out ++ [.link href [.text body]], rejected)
  | .emphasis strong _ _ =>
      (out ++ [if strong then .strong children else .emphasis children], rejected)

/-- `parseInline` from position `i` on, with the nodes and the refused destinations
collected so far. -/
def parseInlineFrom (unicode : Unicode) (src : JsString) (i : Nat) (out : List Inline)
    (rejected : List RejectedUrl) : List Inline × List RejectedUrl :=
  match _here : src[i]? with
  | none => (out, rejected)
  | some char =>
      let step := stepAt unicode src i char
      let inside :=
        match _inner : step.inside with
        | none => ([], rejected)
        | some inner => parseInlineFrom unicode inner 0 [] rejected
      let emitted := emit step inside.1 out inside.2
      parseInlineFrom unicode src step.next emitted.1 emitted.2
termination_by scanMeasure src i
decreasing_by
  · exact scanMeasure_inside (stepAt_inside unicode _here _inner)
  · exact scanMeasure_next (List.getElem?_eq_some_iff.mp _here).1 (stepAt_next unicode _here)

/-- Parses one run of inline markdown into nodes, adding to the refused destinations. -/
def parseInline (unicode : Unicode) (src : JsString) (rejected : List RejectedUrl) :
    List Inline × List RejectedUrl :=
  parseInlineFrom unicode src 0 [] rejected

/-! ### The scan, step by step -/

section Scan

variable {unicode : Unicode} {src : JsString} {i : Nat} {char : CodeUnit}

theorem parseInlineFrom_end (ended : src[i]? = none) (out : List Inline)
    (rejected : List RejectedUrl) :
    parseInlineFrom unicode src i out rejected = (out, rejected) := by
  rw [parseInlineFrom.eq_def]
  split
  · rfl
  · rename_i here
    rw [ended] at here
    cases here

theorem parseInlineFrom_leaf (here : src[i]? = some char)
    (leaf : (stepAt unicode src i char).inside = none) (out : List Inline)
    (rejected : List RejectedUrl) :
    parseInlineFrom unicode src i out rejected =
      parseInlineFrom unicode src (stepAt unicode src i char).next
        (emit (stepAt unicode src i char) [] out rejected).1
        (emit (stepAt unicode src i char) [] out rejected).2 := by
  rw [parseInlineFrom.eq_def]
  split
  · rename_i ended
    rw [here] at ended
    cases ended
  · rename_i other same
    rw [here] at same
    cases same
    simp only
    split
    · rfl
    · rename_i parsed
      rw [leaf] at parsed
      cases parsed

theorem parseInlineFrom_inside {inner : JsString} (here : src[i]? = some char)
    (inside : (stepAt unicode src i char).inside = some inner) (out : List Inline)
    (rejected : List RejectedUrl) :
    parseInlineFrom unicode src i out rejected =
      parseInlineFrom unicode src (stepAt unicode src i char).next
        (emit (stepAt unicode src i char) (parseInlineFrom unicode inner 0 [] rejected).1 out
          (parseInlineFrom unicode inner 0 [] rejected).2).1
        (emit (stepAt unicode src i char) (parseInlineFrom unicode inner 0 [] rejected).1 out
          (parseInlineFrom unicode inner 0 [] rejected).2).2 := by
  rw [parseInlineFrom.eq_def]
  split
  · rename_i ended
    rw [here] at ended
    cases ended
  · rename_i other same
    rw [here] at same
    cases same
    simp only
    split
    · rename_i parsed
      rw [inside] at parsed
      cases parsed
    · rename_i parsed
      rw [inside] at parsed
      cases parsed
      rfl

end Scan

end Assaybank.Markdown
