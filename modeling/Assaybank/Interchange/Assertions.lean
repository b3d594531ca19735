import Assaybank.Library.PythonLines
import Assaybank.Runtime.Lines

/-!
Owns the splitting of a block of Python assertions (`apps/worker/src/interchange/datasets/assertions.ts`):
the scanner of strings and brackets, the lines it takes for the starts of statements, and the
assertions it cuts a block into.

It does not own test methods.
-/

namespace Assaybank.Interchange

open Assaybank.Runtime Assaybank.Library.Python

/-! ### The scanner -/

/-- Quote runs that open a string, longest first. -/
def QUOTES : List JsString := [js "\"\"\"", js "'''", js "\"", js "'"]

/-- The scanner's carry from one line to the next. -/
structure ScanState where
  depth : Nat
  /-- The quote run currently open. -/
  quote : Option JsString
deriving DecidableEq

/-- The bracket depth after a unit of code. -/
def depthAfter (depth : Nat) (c : CodeUnit) : Nat :=
  if c = unit '(' ∨ c = unit '[' ∨ c = unit '\x7b' then depth + 1
  else if c = unit ')' ∨ c = unit ']' ∨ c = unit '\x7d' then depth - 1
  else depth

/-- The loop of `scanLine`, from some unit of the line on. -/
def scanFrom (state : ScanState) (s : JsString) : ScanState :=
  match s with
  | [] => state
  | c :: rest =>
      match state.quote with
      | some quote =>
          if c = unit '\\' then scanFrom state (rest.drop 1)
          else if quote.isPrefixOf (c :: rest) then
            scanFrom { state with quote := none } (rest.drop (quote.length - 1))
          else scanFrom state rest
      | none =>
          if c = unit '#' then state
          else
            match QUOTES.find? (·.isPrefixOf (c :: rest)) with
            | some opened =>
                scanFrom { state with quote := some opened } (rest.drop (opened.length - 1))
            | none => scanFrom { state with depth := depthAfter state.depth c } rest
termination_by s.length
decreasing_by all_goals simp only [List.length_drop, List.length_cons]; omega

/-- `line.trimEnd().endsWith('\\')`. -/
def endsInBackslash (line : JsString) : Bool := (trimEnd line).getLast? == some (unit '\\')

def scanLine (line : JsString) (state : ScanState) : ScanState :=
  let scanned := scanFrom state line
  ⟨if endsInBackslash line then max scanned.depth 1 else scanned.depth, scanned.quote⟩

def structuralFrom (state : ScanState) : List JsString → List Bool
  | [] => []
  | line :: rest =>
      (state.depth == 0 && state.quote.isNone) :: structuralFrom (scanLine line state) rest

/-- Which lines begin in code rather than part-way through a string or a bracket. -/
def structuralLines (lines : List JsString) : List Bool := structuralFrom ⟨0, none⟩ lines

/-! ### Assertions -/

/-- `/^\s*assert(\s|$)/u`. -/
def ASSERT (line : JsString) : Bool :=
  let word := trimStart line
  (js "assert").isPrefixOf word && (word.drop 6).head?.all isSpace

structure SplitAssertion where
  code : JsString
  /-- The number of its first line, from one. -/
  line : Nat
deriving DecidableEq

/-- The assertion whose lines are being collected. -/
structure CurrentAssertion where
  lines : List JsString
  line : Nat

structure SplitState where
  preamble : List JsString
  assertions : List SplitAssertion
  current : Option CurrentAssertion

/-- `lines.join('\n').trimEnd()`. -/
def linesCode (lines : List JsString) : JsString := trimEnd (joinWith (js "\n") lines)

def CurrentAssertion.split (current : CurrentAssertion) : SplitAssertion :=
  ⟨linesCode current.lines, current.line⟩

/-- One line, with its position from zero and whether it is structural. -/
def SplitState.next (state : SplitState) (line : JsString) (index : Nat) (structural : Bool) :
    SplitState :=
  if structural && ASSERT line then
    match state.current with
    | some current =>
        { state with
          assertions := state.assertions ++ [current.split]
          current := some ⟨[line], index + 1⟩ }
    | none => { state with current := some ⟨[line], index + 1⟩ }
  else
    match state.current with
    | some current =>
        { state with current := some { current with lines := current.lines ++ [line] } }
    | none => { state with preamble := state.preamble ++ [line] }

def splitFrom (state : SplitState) (index : Nat) : List (JsString × Bool) → SplitState
  | [] => state
  | (line, structural) :: rest => splitFrom (state.next line index structural) (index + 1) rest

structure Split where
  preamble : JsString
  assertions : List SplitAssertion
deriving DecidableEq

def SplitState.finish (state : SplitState) : Split :=
  ⟨linesCode state.preamble, state.assertions ++ (state.current.map CurrentAssertion.split).toList⟩

/-- `block.replace(/\r\n?/gu, '\n').split('\n')`. -/
def linesOf (block : JsString) : List JsString := splitOn (unit '\n') (normaliseNewlines block)

/-- Every assertion in a block, in order, and what stands before the first. -/
def splitAssertions (block : JsString) : Split :=
  let lines := linesOf block
  (splitFrom ⟨[], [], none⟩ 0 (lines.zip (structuralLines lines))).finish

/-! ### The scanner against the language -/

/-- The run of quotes a string closes with. -/
def quoteText (quote : Quote) : JsString :=
  if quote.triple then [quote.mark, quote.mark, quote.mark] else [quote.mark]

/-- What the scanner carries where the language has something open; a backslash outside brackets
has left it a depth too many once it is `passed`. -/
def scanOf (passed : Bool) (state : Open) : ScanState :=
  ⟨state.brackets.length + passed.toNat, state.quote.map quoteText⟩

private theorem isQuote_iff {c : CodeUnit} : isQuote c = true ↔ c = unit '"' ∨ c = unit '\'' := by
  simp [isQuote]

private theorem find_triple {c : CodeUnit} (quote : isQuote c = true) (after : JsString) :
    QUOTES.find? (·.isPrefixOf (c :: c :: c :: after)) = some [c, c, c] := by
  rcases isQuote_iff.mp quote with rfl | rfl
  · rfl
  · rfl

private theorem not_prefix_of_head {first c : CodeUnit} {others rest : JsString}
    (differs : first ≠ c) : (first :: others).isPrefixOf (c :: rest) = false := by
  rw [← Bool.not_eq_true, List.isPrefixOf_iff_prefix]
  rintro ⟨tail, same⟩
  exact differs (List.cons.inj same).1

private theorem find_single {c : CodeUnit} (quote : isQuote c = true) {rest : JsString}
    (other : [c, c].isPrefixOf rest = false) :
    QUOTES.find? (·.isPrefixOf (c :: rest)) = some [c] := by
  have triple : [c, c, c].isPrefixOf (c :: rest) = false := by
    simpa [List.isPrefixOf] using other
  have single : [c].isPrefixOf (c :: rest) = true := by simp [List.isPrefixOf]
  rcases isQuote_iff.mp quote with rfl | rfl
  · have apostrophes : (js "'''").isPrefixOf (unit '"' :: rest) = false :=
      not_prefix_of_head (by decide)
    have marks : (js "\"\"\"").isPrefixOf (unit '"' :: rest) = false := triple
    have mark : (js "\"").isPrefixOf (unit '"' :: rest) = true := single
    simp only [QUOTES, List.find?_cons, marks, apostrophes, mark]
    rfl
  · have marks : (js "\"\"\"").isPrefixOf (unit '\'' :: rest) = false :=
      not_prefix_of_head (by decide)
    have apostrophes : (js "'''").isPrefixOf (unit '\'' :: rest) = false := triple
    have mark : (js "\"").isPrefixOf (unit '\'' :: rest) = false := not_prefix_of_head (by decide)
    have apostrophe : (js "'").isPrefixOf (unit '\'' :: rest) = true := single
    simp only [QUOTES, List.find?_cons, marks, apostrophes, mark, apostrophe]
    rfl

private theorem find_none {c : CodeUnit} (plain : ¬ isQuote c = true) (rest : JsString) :
    QUOTES.find? (·.isPrefixOf (c :: rest)) = none := by
  have others : c ≠ unit '"' ∧ c ≠ unit '\'' := by
    rw [isQuote_iff, not_or] at plain
    exact plain
  rw [List.find?_eq_none]
  intro quote known within
  obtain ⟨tail, same⟩ := List.isPrefixOf_iff_prefix.mp within
  simp only [QUOTES, List.mem_cons, List.not_mem_nil, or_false] at known
  rcases known with rfl | rfl | rfl | rfl
  · exact others.1 (List.cons.inj same).1.symm
  · exact others.2 (List.cons.inj same).1.symm
  · exact others.1 (List.cons.inj same).1.symm
  · exact others.2 (List.cons.inj same).1.symm

/-! One equation of the loop for each of its branches. -/

section Scan

variable {depth : Nat} {quote : JsString} {c : CodeUnit} {rest : JsString}

private theorem scanFrom_nil (state : ScanState) : scanFrom state [] = state := by
  rw [scanFrom]

private theorem scanFrom_escape :
    scanFrom ⟨depth, some quote⟩ (unit '\\' :: rest) =
      scanFrom ⟨depth, some quote⟩ (rest.drop 1) := by
  rw [scanFrom]
  exact if_pos rfl

private theorem scanFrom_close (depth : Nat) (plain : c ≠ unit '\\')
    (closes : quote.isPrefixOf (c :: rest) = true) :
    scanFrom ⟨depth, some quote⟩ (c :: rest) =
      scanFrom ⟨depth, none⟩ (rest.drop (quote.length - 1)) := by
  rw [scanFrom]
  simp only [if_neg plain, if_pos closes]

private theorem scanFrom_within (plain : c ≠ unit '\\')
    (other : ¬ quote.isPrefixOf (c :: rest) = true) :
    scanFrom ⟨depth, some quote⟩ (c :: rest) = scanFrom ⟨depth, some quote⟩ rest := by
  rw [scanFrom]
  simp only [if_neg plain, if_neg other]

private theorem scanFrom_comment :
    scanFrom ⟨depth, none⟩ (unit '#' :: rest) = ⟨depth, none⟩ := by
  rw [scanFrom]
  exact if_pos rfl

private theorem scanFrom_open (code : c ≠ unit '#')
    (opens : QUOTES.find? (·.isPrefixOf (c :: rest)) = some quote) :
    scanFrom ⟨depth, none⟩ (c :: rest) =
      scanFrom ⟨depth, some quote⟩ (rest.drop (quote.length - 1)) := by
  rw [scanFrom]
  simp only [if_neg code, opens]

private theorem scanFrom_code (depth : Nat) (code : c ≠ unit '#') (plain : ¬ isQuote c = true)
    (rest : JsString) :
    scanFrom ⟨depth, none⟩ (c :: rest) = scanFrom ⟨depthAfter depth c, none⟩ rest := by
  rw [scanFrom]
  simp only [if_neg code, find_none plain]

end Scan

private theorem outlined_eq_some {brackets : List CodeUnit} {c : CodeUnit}
    {read : Option (Open × JsString)} {next : Open} {text : JsString}
    (found : outlined brackets c read = some (next, text)) :
    ∃ inner, read = some (next, inner) := by
  obtain ⟨⟨state, inner⟩, same, made⟩ := Option.map_eq_some_iff.mp found
  obtain ⟨rfl, _⟩ := Prod.mk.inj made
  exact ⟨inner, same⟩

private theorem depthAfter_opening {c owed : CodeUnit} (opens : closing? c = some owed)
    (depth : Nat) : depthAfter depth c = depth + 1 := by
  have bracket : c = unit '(' ∨ c = unit '[' ∨ c = unit '\x7b' := by
    unfold closing? at opens
    split_ifs at opens with round square curly
    · exact .inl round
    · exact .inr (.inl square)
    · exact .inr (.inr curly)
  exact if_pos bracket

private theorem depthAfter_other {c : CodeUnit} (opens : closing? c = none) (depth : Nat) :
    depthAfter depth c = if isClosing c then depth - 1 else depth := by
  unfold closing? at opens
  split_ifs at opens with round square curly
  unfold depthAfter
  rw [if_neg (by simp [round, square, curly])]
  have same : (c = unit ')' ∨ c = unit ']' ∨ c = unit '\x7d') ↔ isClosing c = true := by
    simp [isClosing, or_assoc]
  simp only [same]

/-- The scanner goes along with the language over a line it can read. -/
private theorem scanFrom_readLine {brackets : List CodeUnit} {quote : Option Quote} {s : JsString}
    {next : Open} {text : JsString} (more : Nat)
    (read : readLine brackets quote s = some (next, text)) :
    scanFrom ⟨brackets.length + more, quote.map quoteText⟩ s =
      ⟨next.brackets.length + more, next.quote.map quoteText⟩ := by
  fun_induction readLine brackets quote s generalizing next text with
  | case1 =>
      obtain ⟨rfl, _⟩ := Prod.mk.inj (Option.some.inj read)
      exact scanFrom_nil _
  | case2 =>
      obtain ⟨rfl, _⟩ := Prod.mk.inj (Option.some.inj read)
      exact scanFrom_nil _
  | case3 => cases read
  | case4 =>
      obtain ⟨rfl, _⟩ := Prod.mk.inj (Option.some.inj read)
      exact scanFrom_escape.trans (scanFrom_nil _)
  | case5 brackets opened escaped after inductionHypothesis =>
      exact scanFrom_escape.trans (inductionHypothesis read)
  | case6 brackets opened triple second third after plain same inductionHypothesis =>
      obtain ⟨rfl, rfl⟩ := same
      have closes : (quoteText opened).isPrefixOf
          (opened.mark :: opened.mark :: opened.mark :: after) = true := by
        simp [quoteText, triple, List.isPrefixOf]
      have three : (quoteText opened).length = 3 := by simp [quoteText, triple]
      have step := scanFrom_close (brackets.length + more) plain closes
      rw [three] at step
      exact step.trans (inductionHypothesis read)
  | case7 brackets opened triple second third after plain differs inductionHypothesis =>
      have other : ¬ (quoteText opened).isPrefixOf (opened.mark :: second :: third :: after) = true := by
        rw [quoteText, if_pos triple, List.isPrefixOf_iff_prefix]
        rintro ⟨tail, same⟩
        obtain ⟨_, same⟩ := List.cons.inj same
        obtain ⟨second, same⟩ := List.cons.inj same
        exact differs ⟨second.symm, (List.cons.inj same).1.symm⟩
      exact (scanFrom_within plain other).trans (inductionHypothesis read)
  | case8 brackets opened triple others short plain inductionHypothesis =>
      have other : ¬ (quoteText opened).isPrefixOf (opened.mark :: others) = true := by
        rw [quoteText, if_pos triple, List.isPrefixOf_iff_prefix]
        rintro ⟨tail, same⟩
        exact short opened.mark opened.mark tail (List.cons.inj same).2.symm
      exact (scanFrom_within plain other).trans (inductionHypothesis read)
  | case9 brackets rest opened single plain inductionHypothesis =>
      have closes : (quoteText opened).isPrefixOf (opened.mark :: rest) = true := by
        simp [quoteText, single, List.isPrefixOf]
      have one : (quoteText opened).length = 1 := by simp [quoteText, single]
      have step := scanFrom_close (brackets.length + more) plain closes
      rw [one] at step
      exact step.trans (inductionHypothesis read)
  | case10 brackets c rest opened plain differs inductionHypothesis =>
      have other : ¬ (quoteText opened).isPrefixOf (c :: rest) = true := by
        unfold quoteText
        split
        · rw [not_prefix_of_head (Ne.symm differs)]
          exact Bool.false_ne_true
        · rw [not_prefix_of_head (Ne.symm differs)]
          exact Bool.false_ne_true
      exact (scanFrom_within plain other).trans (inductionHypothesis read)
  | case11 =>
      obtain ⟨rfl, _⟩ := Prod.mk.inj (Option.some.inj read)
      exact scanFrom_comment
  | case12 =>
      obtain ⟨rfl, _⟩ := Prod.mk.inj (Option.some.inj read)
      exact (scanFrom_code _ (by decide) (by decide) []).trans (scanFrom_nil _)
  | case13 => cases read
  | case14 brackets c code plain quote second third after same inductionHypothesis =>
      obtain ⟨rfl, rfl⟩ := same
      obtain ⟨inner, read⟩ := outlined_eq_some read
      exact (scanFrom_open code (find_triple quote after)).trans (inductionHypothesis read)
  | case15 brackets c code plain quote second third after differs inductionHypothesis =>
      obtain ⟨inner, read⟩ := outlined_eq_some read
      have other : [c, c].isPrefixOf (second :: third :: after) = false := by
        rw [← Bool.not_eq_true, List.isPrefixOf_iff_prefix]
        rintro ⟨tail, same⟩
        obtain ⟨second, same⟩ := List.cons.inj same
        exact differs ⟨second.symm, (List.cons.inj same).1.symm⟩
      exact (scanFrom_open code (find_single quote other)).trans (inductionHypothesis read)
  | case16 brackets c code plain quote others short inductionHypothesis =>
      obtain ⟨inner, read⟩ := outlined_eq_some read
      have other : [c, c].isPrefixOf others = false := by
        rw [← Bool.not_eq_true, List.isPrefixOf_iff_prefix]
        rintro ⟨tail, same⟩
        exact short c c tail same.symm
      exact (scanFrom_open code (find_single quote other)).trans (inductionHypothesis read)
  | case17 brackets c rest code plain quote owed opens inductionHypothesis =>
      obtain ⟨inner, read⟩ := outlined_eq_some read
      have step := scanFrom_code (brackets.length + more) code quote rest
      have deeper : brackets.length + more + 1 = brackets.length + 1 + more := by omega
      rw [depthAfter_opening opens, deeper] at step
      exact step.trans (inductionHypothesis read)
  | case18 => cases read
  | case19 c rest code plain quote opens closes outer inductionHypothesis =>
      have step := scanFrom_code (outer.length + 1 + more) code quote rest
      have shallower : outer.length + 1 + more - 1 = outer.length + more := by omega
      rw [depthAfter_other opens, if_pos closes, shallower] at step
      exact step.trans (inductionHypothesis read)
  | case20 => cases read
  | case21 brackets c rest code plain quote opens other inductionHypothesis =>
      obtain ⟨inner, read⟩ := outlined_eq_some read
      have step := scanFrom_code (brackets.length + more) code quote rest
      rw [depthAfter_other opens, if_neg other] at step
      exact step.trans (inductionHypothesis read)

/-- Once a line has ended, in a backslash outside brackets or not, the scanner stands where the
language does, or a depth too many. -/
private theorem scanLine_read {state next : Open} {line text : JsString} (passed : Bool)
    (read : state.read line = some (next, text)) :
    scanLine line (scanOf passed state) =
      scanOf (passed || (endsInBackslash line && next.brackets == [])) next := by
  have scanned : scanFrom (scanOf passed state) line = scanOf passed next :=
    scanFrom_readLine passed.toNat read
  rw [scanLine, scanned]
  cases shape : next.brackets with
  | nil =>
      cases passed with
      | false =>
          cases ends : endsInBackslash line with
          | false => simp [scanOf, shape]
          | true => simp [scanOf, shape]
      | true => simp [scanOf, shape]
  | cons owed outer =>
      have deep : max (outer.length + 1 + passed.toNat) 1 = outer.length + 1 + passed.toNat := by
        omega
      simp [scanOf, shape, deep]

private theorem getLast?_of_joined {brackets : List CodeUnit} {quote : Option Quote} {s : JsString}
    {next : Open} {text : JsString} (read : readLine brackets quote s = some (next, text))
    (joined : next.joined = true) : s.getLast? = some (unit '\\') := by
  have longer {c d : CodeUnit} {rest : JsString} (last : (d :: rest).getLast? = some (unit '\\')) :
      (c :: d :: rest).getLast? = some (unit '\\') := by
    rwa [List.getLast?_cons_cons]
  have onward {c : CodeUnit} {rest : JsString} (last : rest.getLast? = some (unit '\\')) :
      (c :: rest).getLast? = some (unit '\\') := by
    cases rest with
    | nil => cases last
    | cons d others => exact longer last
  fun_induction readLine brackets quote s generalizing next text with
  | case1 | case2 | case4 | case11 =>
      obtain ⟨rfl, _⟩ := Prod.mk.inj (Option.some.inj read)
      cases joined
  | case3 | case13 | case18 | case20 => cases read
  | case5 _ _ _ _ inductionHypothesis => exact onward (onward (inductionHypothesis read joined))
  | case6 _ _ _ _ _ _ _ _ inductionHypothesis =>
      exact onward (onward (onward (inductionHypothesis read joined)))
  | case7 _ _ _ _ _ _ _ _ inductionHypothesis => exact onward (inductionHypothesis read joined)
  | case8 _ _ _ _ _ _ inductionHypothesis => exact onward (inductionHypothesis read joined)
  | case9 _ _ _ _ _ inductionHypothesis => exact onward (inductionHypothesis read joined)
  | case10 _ _ _ _ _ _ inductionHypothesis => exact onward (inductionHypothesis read joined)
  | case12 => rfl
  | case14 _ _ _ _ _ _ _ _ _ inductionHypothesis =>
      obtain ⟨inner, read⟩ := outlined_eq_some read
      exact onward (onward (onward (inductionHypothesis read joined)))
  | case15 _ _ _ _ _ _ _ _ _ inductionHypothesis =>
      obtain ⟨inner, read⟩ := outlined_eq_some read
      exact onward (inductionHypothesis read joined)
  | case16 _ _ _ _ _ _ _ inductionHypothesis =>
      obtain ⟨inner, read⟩ := outlined_eq_some read
      exact onward (inductionHypothesis read joined)
  | case17 _ _ _ _ _ _ _ _ inductionHypothesis =>
      obtain ⟨inner, read⟩ := outlined_eq_some read
      exact onward (inductionHypothesis read joined)
  | case19 _ _ _ _ _ _ _ _ inductionHypothesis => exact onward (inductionHypothesis read joined)
  | case21 _ _ _ _ _ _ _ _ inductionHypothesis =>
      obtain ⟨inner, read⟩ := outlined_eq_some read
      exact onward (inductionHypothesis read joined)

/-- A line that a backslash joins to the next is one the scanner sees end in a backslash. -/
private theorem endsInBackslash_of_joined {state next : Open} {line text : JsString}
    (read : state.read line = some (next, text)) (joined : next.joined = true) :
    endsInBackslash line = true := by
  obtain ⟨before, same⟩ := List.getLast?_eq_some_iff.mp (getLast?_of_joined read joined)
  have kept : trimEnd line = line := by
    rw [same, trimEnd]
    exact List.rdropWhile_concat_neg isSpace before (unit '\\') (by decide)
  rw [endsInBackslash, kept, same, List.getLast?_concat]
  rfl

/-- Whether the scanner takes a line for the start of a statement. -/
def marksStart (passed : Bool) (state : Open) : Bool :=
  (scanOf passed state).depth == 0 && (scanOf passed state).quote.isNone

/-- Within a logical line no line is taken for a start. -/
private theorem marksStart_continues {state next : Open} {line text : JsString} (passed : Bool)
    (read : state.read line = some (next, text)) (continues : next.continues = true) :
    marksStart (passed || (endsInBackslash line && next.brackets == [])) next = false := by
  cases shape : next.brackets with
  | cons owed outer => simp [marksStart, scanOf, shape]
  | nil =>
      cases quoted : next.quote with
      | some quote => simp [marksStart, scanOf, quoted]
      | none =>
          have joined : next.joined = true := by
            simpa [Open.continues, shape, quoted] using continues
          have ends := endsInBackslash_of_joined read joined
          simp [marksStart, scanOf, shape, ends]

/-- Whether one of the lines, after its white space, ends in a backslash that stands in no
bracket. -/
def endsBareFrom : Open → List JsString → Bool
  | _, [] => false
  | state, line :: rest =>
      match state.read line with
      | none => false
      | some (next, _) => (endsInBackslash line && next.brackets == []) || endsBareFrom next rest

/-- Whether a physical line of a logical line ends in a backslash outside brackets, of the code, of
a string or of a comment. -/
def endsBare (line : LogicalLine) : Bool := endsBareFrom .nothing line.physical

private theorem eq_nothing_of_not_continues {state : Open} (ended : state.continues = false) :
    state = .nothing := by
  obtain ⟨brackets, quote, joined⟩ := state
  simp only [Open.continues, Bool.or_eq_false_iff, bne_eq_false_iff_eq,
    Option.isSome_eq_false_iff, Option.isNone_iff_eq_none] at ended
  obtain ⟨⟨rfl, rfl⟩, rfl⟩ := ended
  rfl

/-- The scanner over the lines that finish what is open. -/
private theorem structuralFrom_completes {state : Open} {lines : List JsString}
    (complete : completes state lines = true) (passed : Bool) (rest : List JsString) :
    structuralFrom (scanOf passed state) (lines ++ rest) =
      marksStart passed state :: List.replicate lines.tail.length false ++
        structuralFrom (scanOf (passed || endsBareFrom state lines) .nothing) rest := by
  induction lines generalizing state passed with
  | nil => cases complete
  | cons line others inductionHypothesis =>
      rw [completes] at complete
      cases read : state.read line with
      | none => simp [read] at complete
      | some found =>
          obtain ⟨next, text⟩ := found
          simp only [read] at complete
          rw [List.cons_append, structuralFrom, scanLine_read passed read, endsBareFrom, read]
          by_cases single : others = []
          · subst single
            rw [if_pos rfl, Bool.not_eq_true'] at complete
            rw [eq_nothing_of_not_continues complete]
            simp [endsBareFrom, marksStart]
          · rw [if_neg single, Bool.and_eq_true] at complete
            rw [inductionHypothesis complete.2, marksStart_continues passed read complete.1]
            obtain ⟨second, later, rfl⟩ := List.exists_cons_of_ne_nil single
            simp [marksStart, List.replicate_succ, Bool.or_assoc]

/-- A logical line, and whether the scanner takes its first physical line for a start. -/
structure Scanned where
  line : LogicalLine
  seen : Bool

/-- The lines of a block, once a depth too many is carried or not. -/
def scannedFrom : Bool → List LogicalLine → List Scanned
  | _, [] => []
  | passed, line :: rest => ⟨line, !passed⟩ :: scannedFrom (passed || endsBare line) rest

def scanned (block : List LogicalLine) : List Scanned := scannedFrom false block

private theorem physicalLines_cons (line : LogicalLine) (rest : List LogicalLine) :
    physicalLines (line :: rest) = line.physical ++ physicalLines rest := by
  simp [physicalLines]

private theorem structuralFrom_scannedFrom (passed : Bool) (block : List LogicalLine) :
    structuralFrom (scanOf passed .nothing) (physicalLines block) =
      (scannedFrom passed block).flatMap fun here =>
        here.seen :: List.replicate here.line.physical.tail.length false := by
  induction block generalizing passed with
  | nil => rfl
  | cons line rest inductionHypothesis =>
      have start : marksStart passed .nothing = !passed := by
        cases passed with
        | false => rfl
        | true => rfl
      rw [physicalLines_cons, structuralFrom_completes line.complete, start, inductionHypothesis,
        scannedFrom, List.flatMap_cons]
      rfl

/-- Within a logical line the scanner takes no line for a start. -/
theorem structuralLines_scanned (block : List LogicalLine) :
    structuralLines (physicalLines block) =
      (scanned block).flatMap fun here =>
        here.seen :: List.replicate here.line.physical.tail.length false :=
  structuralFrom_scannedFrom false block

/-- A line that is not seen start hides those after it. -/
theorem seen_of_scannedFrom {passed : Bool} {block : List LogicalLine} :
    (scannedFrom passed block).Pairwise fun here after => after.seen = true → here.seen = true := by
  have hidden (block : List LogicalLine) : ∀ here ∈ scannedFrom true block, here.seen = false := by
    induction block with
    | nil => simp [scannedFrom]
    | cons line rest inductionHypothesis =>
        rw [scannedFrom, Bool.true_or, List.forall_mem_cons]
        exact ⟨rfl, inductionHypothesis⟩
  induction block generalizing passed with
  | nil => exact List.Pairwise.nil
  | cons line rest inductionHypothesis =>
      rw [scannedFrom, List.pairwise_cons]
      refine ⟨?_, inductionHypothesis⟩
      intro after inside seen
      cases passed with
      | false => rfl
      | true =>
          rw [Bool.true_or] at inside
          rw [hidden rest after inside] at seen
          cases seen

/-- Once a depth too many is carried, no line is taken for a start. -/
private theorem structuralFrom_passed (block : List LogicalLine) :
    structuralFrom (scanOf true .nothing) (physicalLines block) =
      List.replicate (physicalLines block).length false := by
  induction block with
  | nil => rfl
  | cons line rest inductionHypothesis =>
      have length : line.physical.length = line.physical.tail.length + 1 := by
        conv_lhs => rw [line.physical_eq_cons]
        rfl
      rw [physicalLines_cons, structuralFrom_completes line.complete true, Bool.true_or, inductionHypothesis,
        List.length_append, length, List.replicate_add, List.replicate_succ]
      rfl

private theorem structuralFrom_block (block : List LogicalLine) :
    structuralFrom (scanOf false .nothing) (physicalLines block) = firstLines block ↔
      ∀ line ∈ block.dropLast, endsBare line = false := by
  induction block with
  | nil => simp [physicalLines, firstLines, structuralFrom]
  | cons line rest inductionHypothesis =>
      have marks : firstLines (line :: rest) =
          true :: List.replicate line.physical.tail.length false ++ firstLines rest := by
        simp [firstLines]
      have start : marksStart false .nothing = true := rfl
      rw [physicalLines_cons, structuralFrom_completes line.complete false, Bool.false_or, marks, start,
        List.append_cancel_left_eq]
      cases rest with
      | nil => simp [physicalLines, firstLines, structuralFrom]
      | cons second later =>
          rw [List.dropLast_cons_cons, List.forall_mem_cons]
          show structuralFrom (scanOf (endsBare line) .nothing) (physicalLines (second :: later)) = _ ↔ _
          cases bare : endsBare line with
          | false => simpa using inductionHypothesis
          | true =>
              rw [structuralFrom_passed]
              constructor
              · intro same
                have head := congrArg List.head? same
                obtain ⟨first, others, shape⟩ := List.exists_cons_of_ne_nil second.physical_ne_nil
                simp [physicalLines, firstLines, shape, List.replicate_succ] at head
              · rintro ⟨impossible, _⟩
                cases impossible

/-- The lines taken for starts are the first lines of the logical lines, unless a line before the
last logical line ends in a backslash outside brackets. -/
theorem structuralLines_eq_firstLines (block : List LogicalLine) :
    structuralLines (physicalLines block) = firstLines block ↔
      ∀ line ∈ block.dropLast, endsBare line = false :=
  structuralFrom_block block

end Assaybank.Interchange
