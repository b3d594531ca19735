import Assaybank.Runtime.Text

/-!
Owns the lines of a Python program: how its physical lines are read into logical lines, and what of
a logical line is neither in a string, nor in brackets, nor in a comment.

Contract: a logical line carries the proof that it is complete, so that it ends with nothing open
and no earlier line of it does. What is open at the end of a physical line is all that the reading
of the next one depends on.

Strings are those of the language up to 3.11, where nothing inside the quotes of a formatted string
opens a string or a bracket. It does not own tokens, nor the grammar of statements.
-/

namespace Assaybank.Library.Python

open Assaybank.Runtime

/-! ### Reading a line -/

/-- The quotes a string opened with: one, or three of the same. -/
structure Quote where
  mark : CodeUnit
  triple : Bool
deriving DecidableEq

/-- What is open after a physical line: the brackets still to be closed, innermost first, the
string, and whether a backslash joins the next line. -/
structure Open where
  brackets : List CodeUnit
  quote : Option Quote
  joined : Bool
deriving DecidableEq

/-- Nothing is open. -/
def Open.nothing : Open := ⟨[], none, false⟩

/-- Whether the logical line goes on. -/
def Open.continues (state : Open) : Bool :=
  state.brackets != [] || state.quote.isSome || state.joined

def isQuote (c : CodeUnit) : Bool := c == unit '"' || c == unit '\''

/-- What closes a bracket. -/
def closing? (c : CodeUnit) : Option CodeUnit :=
  if c = unit '(' then some (unit ')')
  else if c = unit '[' then some (unit ']')
  else if c = unit '\x7b' then some (unit '\x7d')
  else none

def isClosing (c : CodeUnit) : Bool := c == unit ')' || c == unit ']' || c == unit '\x7d'

/-- A unit of the outline, when no bracket is open. -/
def outlined (brackets : List CodeUnit) (c : CodeUnit) (read : Option (Open × JsString)) :
    Option (Open × JsString) :=
  read.map fun found => (found.1, if brackets = [] then c :: found.2 else found.2)

/-- Reads a physical line from some unit on: what is open after it, and its outline, which keeps
one unit of each string and of each pair of brackets. `none` where the line cannot be read: a
bracket closes another, a string of single quotes does not end, or a backslash outside a string is
not the last unit. -/
def readLine (brackets : List CodeUnit) (quote : Option Quote) :
    JsString → Option (Open × JsString)
  | [] =>
      match quote with
      | none => some (⟨brackets, none, false⟩, [])
      | some opened => if opened.triple then some (⟨brackets, some opened, false⟩, []) else none
  | c :: rest =>
      match quote with
      | some opened =>
          if c = unit '\\' then
            match rest with
            | [] => some (⟨brackets, some opened, false⟩, [])
            | _ :: after => readLine brackets (some opened) after
          else if c = opened.mark then
            if opened.triple then
              match rest with
              | second :: third :: after =>
                  if second = c ∧ third = c then readLine brackets none after
                  else readLine brackets (some opened) (second :: third :: after)
              | others => readLine brackets (some opened) others
            else readLine brackets none rest
          else readLine brackets (some opened) rest
      | none =>
          if c = unit '#' then some (⟨brackets, none, false⟩, [])
          else if c = unit '\\' then
            if rest = [] then some (⟨brackets, none, true⟩, []) else none
          else if isQuote c then
            match rest with
            | second :: third :: after =>
                if second = c ∧ third = c then
                  outlined brackets c (readLine brackets (some ⟨c, true⟩) after)
                else outlined brackets c (readLine brackets (some ⟨c, false⟩) (second :: third :: after))
            | others => outlined brackets c (readLine brackets (some ⟨c, false⟩) others)
          else
            match closing? c with
            | some owed => outlined brackets c (readLine (owed :: brackets) none rest)
            | none =>
                if isClosing c then
                  match brackets with
                  | [] => none
                  | owed :: outer => if owed = c then readLine outer none rest else none
                else outlined brackets c (readLine brackets none rest)

/-- The line after one that left something open. -/
def Open.read (state : Open) (line : JsString) : Option (Open × JsString) :=
  readLine state.brackets state.quote line

/-! ### Logical lines -/

/-- Whether physical lines finish what is open after the last of them and not before. -/
def completes : Open → List JsString → Bool
  | _, [] => false
  | state, line :: rest =>
      match state.read line with
      | none => false
      | some (next, _) =>
          if rest = [] then !next.continues else next.continues && completes next rest

/-- A logical line. -/
structure LogicalLine where
  physical : List JsString
  complete : completes .nothing physical = true

namespace LogicalLine

/-- The first physical line. -/
def first (line : LogicalLine) : JsString := line.physical.headD []

theorem physical_ne_nil (line : LogicalLine) : line.physical ≠ [] := by
  intro empty
  have complete := line.complete
  rw [empty] at complete
  cases complete

theorem physical_eq_cons (line : LogicalLine) :
    line.physical = line.first :: line.physical.tail := by
  obtain ⟨head, rest, same⟩ := List.exists_cons_of_ne_nil line.physical_ne_nil
  rw [LogicalLine.first, same]
  rfl

end LogicalLine

/-- The physical lines of a block. -/
def physicalLines (block : List LogicalLine) : List JsString := block.flatMap LogicalLine.physical

/-- Where a block's logical lines start among its physical lines. -/
def firstLines (block : List LogicalLine) : List Bool :=
  block.flatMap fun line => true :: List.replicate line.physical.tail.length false

def outlineFrom : Open → List JsString → JsString
  | _, [] => []
  | state, line :: rest =>
      match state.read line with
      | none => []
      | some (next, text) => text ++ unit ' ' :: outlineFrom next rest

/-! ### Statements -/

/-- White space between tokens. -/
def isPythonSpace (c : CodeUnit) : Bool := c == unit ' ' || c == unit '\t' || c == 0x0C

/-- A unit of a name; every unit outside ASCII counts as one. -/
def isNameUnit (c : CodeUnit) : Bool := isAlpha c || isDigit c || c == unit '_' || 0x80 ≤ c

/-- The name a text starts with, which may be empty. -/
def firstWord (text : JsString) : JsString :=
  (text.dropWhile isPythonSpace).takeWhile isNameUnit

/-- The words that start a clause of a compound statement. -/
def CLAUSE_WORDS : List JsString :=
  ["if", "elif", "else", "for", "while", "try", "except", "finally", "with", "def", "class",
    "async", "match", "case"].map js

namespace LogicalLine

/-- The line without what is in its strings, its brackets and its comment. -/
def outline (line : LogicalLine) : JsString := outlineFrom .nothing line.physical

/-- The simple statements of a line, or all of a clause. -/
def statements (line : LogicalLine) : List JsString :=
  (splitOn (unit ';') line.outline).filter fun statement => !statement.all isPythonSpace

/-- Nothing but white space and a comment. -/
def isBlank (line : LogicalLine) : Bool := line.statements.isEmpty

/-- Whether a line is a clause of a compound statement, with its body or without. -/
def isClause (line : LogicalLine) : Bool := CLAUSE_WORDS.contains (firstWord line.outline)

/-- How deep a line is indented; a tabulator leads to the next multiple of eight. -/
def indent (line : LogicalLine) : Nat :=
  (line.first.takeWhile isBlankUnit).foldl
    (fun width c => if c = unit '\t' then (width / 8 + 1) * 8 else width + 1) 0

/-- Whether a statement that starts with some word stands on a line of its own indentation. -/
def holds (word : JsString) (line : LogicalLine) : Bool :=
  !line.isClause && line.statements.any fun statement => firstWord statement == word

theorem not_holds_of_isBlank {word : JsString} {line : LogicalLine} (blank : line.isBlank = true) :
    line.holds word = false := by
  rw [holds, List.isEmpty_iff.mp blank]
  exact Bool.and_false _

end LogicalLine

/-- The lines whose bodies hold a line of some indentation, innermost first, each with the number
of lines before it; `earlier` is what stands above, last line first. -/
def enclosing (indent : Nat) : List LogicalLine → List (Nat × LogicalLine)
  | [] => []
  | line :: earlier =>
      if line.isBlank || decide (indent ≤ line.indent) then enclosing indent earlier
      else (earlier.length, line) :: enclosing line.indent earlier

/-- A line of a block, with what stands above it, last line first. -/
structure Placed where
  earlier : List LogicalLine
  line : LogicalLine

/-- Every line of a block in its place. -/
def placedAfter : List LogicalLine → List LogicalLine → List Placed
  | _, [] => []
  | earlier, line :: rest => ⟨earlier, line⟩ :: placedAfter (line :: earlier) rest

def placed (block : List LogicalLine) : List Placed := placedAfter [] block

/-- The lines whose bodies hold a line. -/
def Placed.suite (here : Placed) : List (Nat × LogicalLine) :=
  enclosing here.line.indent here.earlier

end Assaybank.Library.Python
