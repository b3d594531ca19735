import Assaybank.Markdown.Inline
import Assaybank.Markdown.Line
import Assaybank.Markdown.RawHtml

/-!
Owns the block parser (`packages/markdown/src/block.ts`) and the document it makes
(`packages/markdown/src/index.ts`).

One iteration of the outer loop of `parseBlocks` is `blockAt`: the block that starts at
line `i`, with the lines its nested blocks are parsed from, and how many lines it takes.
The loop itself, `parseBlocksFrom`, runs on fuel, since the source's loop need not advance:
`none` says the fuel ran out, and a result does not depend on how much was left.
-/

namespace Assaybank.Markdown

open Assaybank.Runtime

/-- What one iteration of the outer loop finds, before inline text and nested lines are parsed. -/
inductive BlockStep where
  | blank
  | code (language : Option JsString) (value : JsString)
  | rule
  | heading (level : Nat) (text : JsString)
  | quote (body : List JsString)
  | list (ordered : Bool) (start : Nat) (items : List (List JsString))
  | table (align : List (Option ColumnAlign)) (head : List JsString) (rows : List (List JsString))
  | paragraph (text : JsString)

/-- The lines a step's nested blocks are parsed from, in the order they are parsed. -/
def BlockStep.bodies : BlockStep → List (List JsString)
  | .quote body => [body]
  | .list _ _ items => items
  | _ => []

/-! ### The lines a block takes -/

/-- The lines of a fenced block up to the line that closes it, and how many lines are taken. -/
def takeFence (marker : CodeUnit) : List JsString → List JsString × Nat
  | [] => ([], 0)
  | current :: rest =>
      if FENCE current = some (marker, []) then ([], 1)
      else
        let (body, taken) := takeFence marker rest
        (current :: body, taken + 1)

/-- The language of a fence: the first word of its info string, if it is a safe one. -/
def fenceLanguage (unicode : Unicode) (info : JsString) : Option JsString :=
  let language := unicode.toLowerCase ((trim info).takeWhile fun c => !isSpace c)
  if LANGUAGE language then some language else none

/-- The lines of a quote, without their markers. A plain line inside a quote belongs to its
last paragraph. -/
def takeQuote : List JsString → List JsString × Nat
  | [] => ([], 0)
  | current :: rest =>
      match QUOTE current with
      | some quoted =>
          let (body, taken) := takeQuote rest
          (quoted :: body, taken + 1)
      | none =>
          if !BLANK current && !interruptsParagraph current then
            let (body, taken) := takeQuote rest
            (current :: body, taken + 1)
          else ([], 0)

/-- The items of a list so far, the lines of the current one, and its content column. -/
structure ListState where
  items : List (List JsString)
  itemLines : List JsString
  contentIndent : Nat

/-- Ends the current item. -/
def ListState.flush (state : ListState) : List (List JsString) :=
  if state.itemLines = [] then state.items else state.items ++ [state.itemLines]

/-- Starts the item a marker opens. -/
def ListState.openItem (state : ListState) (marker : ListMarker) : ListState :=
  { items := state.flush
    itemLines := [marker.content]
    contentIndent := marker.indent + marker.width }

/-- Adds a line to the current item. -/
def ListState.push (state : ListState) (line : JsString) : ListState :=
  { state with itemLines := state.itemLines ++ [line] }

/-- The marker of the list's kind on a line. -/
def listMarker (ordered : Bool) (line : JsString) : Option ListMarker :=
  if ordered then ORDERED line else BULLET line

/-- The marker of the next sibling item. A rule wins over a list item, and a marker indented
past the content column opens a nested list inside the current item. -/
def siblingMarker (ordered : Bool) (state : ListState) (line : JsString) : Option ListMarker :=
  match listMarker ordered line with
  | none => none
  | some marker =>
      if ((state.items = [] ∧ state.itemLines = []) ∨ marker.indent < state.contentIndent) ∧
          !RULE line then
        some marker
      else none

/-- Whether a line is indented to the content column. -/
def isIndented (column : Nat) (line : JsString) : Bool :=
  (List.replicate column (unit ' ')).isPrefixOf line

/-- Whether the line after a blank one continues the current item. -/
def continuesItem (ordered : Bool) (column : Nat) (next : JsString) : Bool :=
  next != [] && (isIndented column next || (listMarker ordered next).isSome)

/-- The items of a list, from a state of the loop on. -/
def takeItems (ordered : Bool) : List JsString → ListState → List (List JsString) × Nat
  | [], state => (state.flush, 0)
  | current :: rest, state =>
      match siblingMarker ordered state current with
      | some marker =>
          let (items, taken) := takeItems ordered rest (state.openItem marker)
          (items, taken + 1)
      | none =>
          if BLANK current then
            if continuesItem ordered state.contentIndent (rest.head?.getD []) then
              let (items, taken) := takeItems ordered rest (state.push [])
              (items, taken + 1)
            else (state.flush, 0)
          else if isIndented state.contentIndent current then
            let (items, taken) :=
              takeItems ordered rest (state.push (current.drop state.contentIndent))
            (items, taken + 1)
          else if !interruptsParagraph current && state.itemLines ≠ [] then
            let (items, taken) := takeItems ordered rest (state.push current)
            (items, taken + 1)
          else (state.flush, 0)

/-- A table row padded or truncated to the width of the header. -/
def rowCells (columns : Nat) (line : JsString) : List JsString :=
  let cells := splitRow line
  (List.range columns).map fun column => cells[column]?.getD []

/-- The body rows of a table. -/
def takeRows (columns : Nat) : List JsString → List (List JsString) × Nat
  | [] => ([], 0)
  | current :: rest =>
      if BLANK current || !current.contains (unit '|') then ([], 0)
      else
        let (rows, taken) := takeRows columns rest
        (rowCells columns current :: rows, taken + 1)

/-- The lines of a paragraph, without their indentation. -/
def takeParagraph : List JsString → List JsString × Nat
  | [] => ([], 0)
  | current :: rest =>
      if BLANK current || interruptsParagraph current ||
          looksLikeTable current (rest.head?.getD []) then
        ([], 0)
      else
        let (body, taken) := takeParagraph rest
        (current.dropWhile isBlankUnit :: body, taken + 1)

/-- A closing run of `#` is decoration, not content: `replace(/[ \t]+#+[ \t]*$/u, '')`. -/
def headingText (text : JsString) : JsString :=
  let core := text.rdropWhile isBlankUnit
  let body := core.rdropWhile (· == unit '#')
  if body.length < core.length ∧ body.getLast?.any isBlankUnit then body.rdropWhile isBlankUnit
  else text

/-! ### One iteration -/

/-- The table rule: its columns match those of its delimiter row. -/
def startsTable (line next : JsString) : Bool :=
  looksLikeTable line next && decide ((splitRow next).length = (splitRow line).length)

/-- The block that starts at `line`, with `rest` the lines after it, and how many lines it takes. -/
def blockOf (unicode : Unicode) (line : JsString) (rest : List JsString) : BlockStep × Nat :=
  if BLANK line then (.blank, 1)
  else
    match FENCE line with
    | some (marker, info) =>
        let (body, taken) := takeFence marker rest
        (.code (fenceLanguage unicode info) (joinWith (js "\n") body), taken + 1)
    | none =>
        if RULE line then (.rule, 1)
        else
          match HEADING line with
          | some (level, text) => (.heading level (headingText text), 1)
          | none =>
              if (QUOTE line).isSome then
                let (body, taken) := takeQuote (line :: rest)
                (.quote body, taken)
              else
                match BULLET line, ORDERED line with
                | none, none =>
                    if startsTable line (rest.head?.getD []) then
                      let head := splitRow line
                      let (rows, taken) := takeRows head.length rest.tail
                      (.table ((splitRow (rest.head?.getD [])).map alignOf) head rows, taken + 2)
                    else
                      let (body, taken) := takeParagraph (line :: rest)
                      (.paragraph (joinWith (js "\n") body), taken)
                | bullet, ordered =>
                    let start := (ordered.or bullet).elim 1 ListMarker.start
                    let (items, taken) := takeItems ordered.isSome (line :: rest) ⟨[], [], 0⟩
                    (.list ordered.isSome start items, taken)

/-- What the outer loop does at line `i`: the block it finds, and the index it goes on from. -/
def blockAt (unicode : Unicode) (lines : List JsString) (i : Nat) : BlockStep × Nat :=
  match lines.drop i with
  | [] => (.blank, i)
  | line :: rest =>
      let (step, taken) := blockOf unicode line rest
      (step, i + taken)

/-! ### The loop -/

/-- Parses every text of a list, adding to the refused destinations in that order. -/
def parseTexts (unicode : Unicode) :
    List JsString → List RejectedUrl → List (List Inline) × List RejectedUrl
  | [], rejected => ([], rejected)
  | text :: rest, rejected =>
      let (nodes, rejected) := parseInline unicode text rejected
      let (parsed, rejected) := parseTexts unicode rest rejected
      (nodes :: parsed, rejected)

/-- Parses the rows of a table. -/
def parseRows (unicode : Unicode) :
    List (List JsString) → List RejectedUrl → List (List (List Inline)) × List RejectedUrl
  | [], rejected => ([], rejected)
  | row :: rest, rejected =>
      let (cells, rejected) := parseTexts unicode row rejected
      let (rows, rejected) := parseRows unicode rest rejected
      (cells :: rows, rejected)

/-- The blocks a step appends. `children` are the blocks of its bodies, parsed by then; the
rows of a table are parsed before its header. -/
def emitBlock (unicode : Unicode) (step : BlockStep) (children : List (List Block))
    (rejected : List RejectedUrl) : List Block × List RejectedUrl :=
  match step with
  | .blank => ([], rejected)
  | .code language value => ([.code language value], rejected)
  | .rule => ([.rule], rejected)
  | .heading level text =>
      let (nodes, rejected) := parseInline unicode text rejected
      ([.heading level nodes], rejected)
  | .quote _ => ([.quote children.flatten], rejected)
  | .list ordered start _ => ([.list ordered start children], rejected)
  | .table align head rows =>
      let (rows, rejected) := parseRows unicode rows rejected
      let (head, rejected) := parseTexts unicode head rejected
      ([.table align head rows], rejected)
  | .paragraph text =>
      let (nodes, rejected) := parseInline unicode text rejected
      ([.paragraph nodes], rejected)

/-- Parses the bodies of a step in order, each with `parse`. -/
def parseBodies (parse : List JsString → List RejectedUrl → Option (List Block × List RejectedUrl)) :
    List (List JsString) → List RejectedUrl → Option (List (List Block) × List RejectedUrl)
  | [], rejected => some ([], rejected)
  | body :: rest, rejected =>
      match parse body rejected with
      | none => none
      | some (blocks, rejected) =>
          match parseBodies parse rest rejected with
          | none => none
          | some (parsed, rejected) => some (blocks :: parsed, rejected)

/-- The outer loop of `parseBlocks` from line `i` on, with what has been collected so far. -/
def parseBlocksFrom (unicode : Unicode) : Nat → List JsString → Nat → List Block →
    List RejectedUrl → Option (List Block × List RejectedUrl)
  | 0, _, _, _, _ => none
  | fuel + 1, lines, i, blocks, rejected =>
      if i < lines.length then
        let (step, next) := blockAt unicode lines i
        match parseBodies (fun body => parseBlocksFrom unicode fuel body 0 []) step.bodies
            rejected with
        | none => none
        | some (children, rejected) =>
            let (emitted, rejected) := emitBlock unicode step children rejected
            parseBlocksFrom unicode fuel lines next (blocks ++ emitted) rejected
      else some (blocks, rejected)

/-- Parses a sequence of lines into blocks. -/
def parseBlocks (unicode : Unicode) (fuel : Nat) (lines : List JsString)
    (rejected : List RejectedUrl) : Option (List Block × List RejectedUrl) :=
  parseBlocksFrom unicode fuel lines 0 [] rejected

/-- Line endings, normalised so a CRLF file parses as the same document as an LF one. -/
def lines (source : JsString) : List JsString := splitOn (unit '\n') (normaliseNewlines source)

/-- Parses author markdown into the document a renderer may display. -/
def parseMarkdown (unicode : Unicode) (fuel : Nat) (source : JsString) : Option MarkdownDocument :=
  match parseBlocks unicode fuel (lines source) [] with
  | none => none
  | some (blocks, rejectedUrls) => some ⟨blocks, findRawHtml source, rejectedUrls⟩

end Assaybank.Markdown
