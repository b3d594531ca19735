import Assaybank.Interchange.Assertions
import Assaybank.Library.Grouping

/-!
Owns what the assertions of a block hold: which logical lines each of them is made of, and when
these are one assert statement.

Contract: the splitter keeps one statement to an assertion exactly on the blocks that are
`Splittable` (`splitAssertions_statements`).
-/

namespace Assaybank.Interchange

open Assaybank.Runtime Assaybank.Library Assaybank.Library.Python

/-! ### What is to be split -/

/-- The lines whose bodies hold the assertions of a block: none, or the functions a dataset wraps
all of them in. -/
def assertionSuite (lines : List LogicalLine) : List Nat :=
  match (placed lines).filter (·.line.holds (js "assert")) with
  | [] => []
  | here :: others =>
      if (here :: others).any (·.suite.isEmpty) then []
      else if here.suite.all fun outer => firstWord outer.2.outline == js "def" then
        here.suite.map Prod.fst
      else []

/-- Whether an assert statement stands at the level of the block's assertions. -/
def isTopLevelAssert (lines : List LogicalLine) (here : Placed) : Bool :=
  here.line.holds (js "assert") && here.suite.map Prod.fst == assertionSuite lines

/-- Whether the splitter starts an assertion at a logical line it sees start. -/
def startsAssertion (here : Placed) : Bool := ASSERT here.line.first

/-- The physical lines of some logical lines. -/
def physicalOf (places : List Placed) : List JsString :=
  places.flatMap fun here => here.line.physical

/-- How many physical lines a logical line has. -/
def lineCount (here : Placed) : Nat := here.line.physical.length

/-- The assertions of groups that follow some number of lines. -/
def assertionsFrom : Nat → List (Placed × List Placed) → List SplitAssertion
  | _, [] => []
  | count, (here, tail) :: rest =>
      ⟨linesCode (physicalOf (here :: tail)), count + 1⟩ ::
        assertionsFrom (count + lineCount here + total lineCount tail) rest

/-- The splitter sees every logical line start where it does, and yields one assertion for each
top-level assert statement, with no other statement in it. -/
structure SplitsStatements (block : JsString) (lines : List LogicalLine) : Prop where
  marks : structuralLines (linesOf block) = firstLines lines
  split : ∃ before groups, ungroup before groups = placed lines ∧
    splitAssertions block =
        ⟨linesCode (physicalOf before), assertionsFrom (total lineCount before) groups⟩ ∧
      (∀ here ∈ before, ¬ isTopLevelAssert lines here = true) ∧
        ∀ group ∈ groups,
          (isTopLevelAssert lines group.1 = true ∧ group.1.line.statements.length = 1) ∧
            ∀ here ∈ group.2, here.line.isBlank = true

/-- What the splitter relies on. -/
structure Splittable (lines : List LogicalLine) : Prop where
  /-- No line before the last logical line ends in a backslash outside brackets. -/
  bare : ∀ line ∈ lines.dropLast, endsBare line = false
  /-- A line that reads like an assertion is a single top-level assert statement. -/
  started : ∀ here ∈ placed lines, startsAssertion here = true →
    isTopLevelAssert lines here = true ∧ here.line.statements.length = 1
  /-- A top-level assert statement stands first on its line, with white space after the word. -/
  missed : ∀ here ∈ placed lines, startsAssertion here = false →
    ¬ isTopLevelAssert lines here = true
  /-- After the first assertion only assertions, blank lines and comments follow. -/
  followed : (placed lines).Pairwise fun here after =>
    startsAssertion here = true → startsAssertion after = false → after.line.isBlank = true

/-! ### The lines of the groups -/

private theorem splitFrom_append (state : SplitState) (index : Nat)
    (left right : List (JsString × Bool)) :
    splitFrom state index (left ++ right) =
      splitFrom (splitFrom state index left) (index + left.length) right := by
  induction left generalizing state index with
  | nil => rfl
  | cons line rest inductionHypothesis =>
      rw [List.cons_append, splitFrom, inductionHypothesis, splitFrom, List.length_cons]
      congr 1
      omega

/-- Lines that start nothing go where the last one went. -/
def SplitState.append (state : SplitState) (lines : List JsString) : SplitState :=
  match state.current with
  | some current => { state with current := some { current with lines := current.lines ++ lines } }
  | none => { state with preamble := state.preamble ++ lines }

private theorem append_append (state : SplitState) (left right : List JsString) :
    (state.append left).append right = state.append (left ++ right) := by
  obtain ⟨preamble, assertions, current⟩ := state
  cases current with
  | none => simp [SplitState.append]
  | some current => simp [SplitState.append]

private theorem append_nil (state : SplitState) : state.append [] = state := by
  obtain ⟨preamble, assertions, current⟩ := state
  cases current with
  | none => simp [SplitState.append]
  | some current => simp [SplitState.append]

private theorem next_plain {structural : Bool} {line : JsString}
    (plain : (structural && ASSERT line) = false) (state : SplitState) (index : Nat) :
    state.next line index structural = state.append [line] := by
  rw [SplitState.next, plain]
  rfl

private theorem splitFrom_plain (state : SplitState) (index : Nat) (lines : List JsString) :
    splitFrom state index (lines.zip (List.replicate lines.length false)) = state.append lines := by
  induction lines generalizing state index with
  | nil => exact (append_nil state).symm
  | cons line rest inductionHypothesis =>
      rw [List.length_cons, List.replicate_succ, List.zip_cons_cons, splitFrom,
        next_plain (Bool.false_and _), inductionHypothesis, append_append]
      rfl

/-- What has been collected, with an assertion that is open. -/
def SplitState.collected (state : SplitState) : List SplitAssertion :=
  state.assertions ++ (state.current.map CurrentAssertion.split).toList

private theorem next_start {line : JsString} (start : ASSERT line = true) (state : SplitState)
    (index : Nat) :
    state.next line index true =
      ⟨state.preamble, state.collected, some ⟨[line], index + 1⟩⟩ := by
  rw [SplitState.next, start, Bool.and_self, if_pos rfl, SplitState.collected]
  cases state.current with
  | none => simp
  | some current => rfl

/-- Over a logical line. -/
private theorem splitFrom_logical (state : SplitState) (index : Nat) (line : LogicalLine) :
    splitFrom state index
        (line.physical.zip (true :: List.replicate line.physical.tail.length false)) =
      if ASSERT line.first then
        ⟨state.preamble, state.collected, some ⟨line.physical, index + 1⟩⟩
      else state.append line.physical := by
  rw [line.physical_eq_cons, List.zip_cons_cons, splitFrom, List.tail_cons, splitFrom_plain]
  by_cases start : ASSERT line.first = true
  · rw [if_pos start, next_start start]
    rfl
  · rw [if_neg start, next_plain (by simpa using start), append_append]
    rfl

private theorem physicalOf_cons (here : Placed) (rest : List Placed) :
    physicalOf (here :: rest) = here.line.physical ++ physicalOf rest := by
  simp [physicalOf]

/-- Over a block whose lines are seen to start where they do. -/
private theorem splitFrom_places (places : List Placed) (state : SplitState) (index : Nat) :
    (splitFrom state index ((physicalOf places).zip (firstLines (places.map Placed.line)))).finish =
      ⟨linesCode (state.append (physicalOf (groupsOf startsAssertion places).1)).preamble,
        (state.append (physicalOf (groupsOf startsAssertion places).1)).collected ++
          assertionsFrom (index + total lineCount (groupsOf startsAssertion places).1)
            (groupsOf startsAssertion places).2⟩ := by
  induction places generalizing state index with
  | nil =>
      rw [groupsOf, physicalOf, List.flatMap_nil, append_nil, assertionsFrom, List.append_nil]
      rfl
  | cons here rest inductionHypothesis =>
      have marks : firstLines ((here :: rest).map Placed.line) =
          true :: List.replicate here.line.physical.tail.length false ++
            firstLines (rest.map Placed.line) := by
        simp [firstLines]
      have length : here.line.physical.length =
          (true :: List.replicate here.line.physical.tail.length false).length := by
        conv_lhs => rw [here.line.physical_eq_cons]
        simp
      have count : (here.line.physical.zip
          (true :: List.replicate here.line.physical.tail.length false)).length = lineCount here := by
        rw [List.length_zip, ← length, Nat.min_self, lineCount]
      rw [physicalOf_cons, marks, List.zip_append length, splitFrom_append, splitFrom_logical,
        inductionHypothesis, count, groupsOf]
      by_cases start : startsAssertion here = true
      · have starts : ASSERT here.line.first = true := start
        have nothing : physicalOf [] = [] := rfl
        have none : total lineCount [] = 0 := rfl
        rw [if_pos starts, if_pos start, assertionsFrom, nothing, append_nil, none, Nat.add_zero,
          physicalOf_cons]
        simp [SplitState.append, SplitState.collected, CurrentAssertion.split]
      · have plain : ¬ ASSERT here.line.first = true := start
        have more : index + lineCount here + total lineCount (groupsOf startsAssertion rest).1 =
            index + total lineCount (here :: (groupsOf startsAssertion rest).1) := by
          simp [total]
          omega
        rw [if_neg plain, if_neg start, append_append, ← physicalOf_cons, more]

/-! ### One statement to an assertion -/

theorem map_line_placedAfter (earlier lines : List LogicalLine) :
    (placedAfter earlier lines).map Placed.line = lines := by
  induction lines generalizing earlier with
  | nil => rfl
  | cons line rest inductionHypothesis =>
      rw [placedAfter, List.map_cons, inductionHypothesis]

theorem physicalOf_placed (lines : List LogicalLine) :
    physicalOf (placed lines) = physicalLines lines := by
  calc physicalOf (placed lines)
      = physicalLines ((placed lines).map Placed.line) := by
        simp [physicalOf, physicalLines, List.flatMap_map]
    _ = physicalLines lines := congrArg physicalLines (map_line_placedAfter [] lines)

private theorem map_line_assertionsFrom (count : Nat) (groups : List (Placed × List Placed)) :
    (assertionsFrom count groups).map SplitAssertion.line =
      (offsets lineCount count groups).map (· + 1) := by
  induction groups generalizing count with
  | nil => rfl
  | cons group rest inductionHypothesis =>
      rw [assertionsFrom, offsets, List.map_cons, List.map_cons, inductionHypothesis]

private theorem lineCount_pos (here : Placed) : 0 < lineCount here :=
  List.length_pos_iff.mpr here.line.physical_ne_nil

/-- The groups of a block are cut where a line reads like an assertion. -/
private theorem splitAssertions_groups {block : JsString} {lines : List LogicalLine}
    (whole : linesOf block = physicalLines lines)
    (marks : structuralLines (linesOf block) = firstLines lines) :
    splitAssertions block =
      ⟨linesCode (physicalOf (groupsOf startsAssertion (placed lines)).1),
        assertionsFrom (total lineCount (groupsOf startsAssertion (placed lines)).1)
          (groupsOf startsAssertion (placed lines)).2⟩ := by
  have run := splitFrom_places (placed lines) ⟨[], [], none⟩ 0
  have same : (placed lines).map Placed.line = lines := map_line_placedAfter [] lines
  rw [physicalOf_placed, same, Nat.zero_add] at run
  rw [splitAssertions, marks, whole]
  exact run

/-- The splitter keeps one statement to an assertion on these blocks and on no others. -/
theorem splitAssertions_statements {block : JsString} {lines : List LogicalLine}
    (whole : linesOf block = physicalLines lines) :
    SplitsStatements block lines ↔ Splittable lines := by
  have idle : ∀ here : Placed, here.line.isBlank = true → ¬ isTopLevelAssert lines here = true := by
    intro here blank wanted
    rw [isTopLevelAssert, LogicalLine.not_holds_of_isBlank blank] at wanted
    cases wanted
  have grouped := @grouped_iff Placed startsAssertion
    (fun here => isTopLevelAssert lines here = true)
    (fun here => isTopLevelAssert lines here = true ∧ here.line.statements.length = 1)
    (fun here => here.line.isBlank = true) idle (placed lines)
  constructor
  · rintro ⟨marks, before, groups, cut, split, unwanted, right⟩
    rw [splitAssertions_groups whole marks] at split
    have lineNumbers := congrArg (fun found => found.assertions.map SplitAssertion.line) split
    simp only [map_line_assertionsFrom] at lineNumbers
    have starts := List.map_injective_iff.mpr (fun a b same => Nat.succ.inj same) lineNumbers
    have places : offsets lineCount (0 + total lineCount before) groups =
        offsets lineCount (0 + total lineCount (groupsOf startsAssertion (placed lines)).1)
          (groupsOf startsAssertion (placed lines)).2 := by
      rw [Nat.zero_add, Nat.zero_add, starts]
    obtain ⟨rfl, rfl⟩ := ungroup_inj lineCount_pos
      (cut.trans (ungroup_groupsOf startsAssertion (placed lines)).symm) places
    obtain ⟨started, missed, followed⟩ := grouped.mp ⟨unwanted, right⟩
    rw [whole] at marks
    exact ⟨(structuralLines_eq_firstLines lines).mp marks, started, missed, followed⟩
  · rintro ⟨bare, started, missed, followed⟩
    have marks : structuralLines (linesOf block) = firstLines lines := by
      rw [whole]
      exact (structuralLines_eq_firstLines lines).mpr bare
    obtain ⟨unwanted, right⟩ := grouped.mpr ⟨started, missed, followed⟩
    exact ⟨marks, _, _, ungroup_groupsOf startsAssertion (placed lines),
      splitAssertions_groups whole marks, unwanted, right⟩

/-- A function that wraps two assertions, the second over three lines. -/
private def wrapped : List LogicalLine :=
  [⟨[js "def check(candidate):"], by decide +kernel⟩,
    ⟨[js "    assert candidate(1) == 'a#('"], by decide +kernel⟩,
    ⟨[js "    assert candidate(", js "        2,", js "    ) == 3"], by decide +kernel⟩,
    ⟨[[]], by decide +kernel⟩]

theorem splitAssertions_statements_example :
    SplitsStatements (joinWith (js "\n") (physicalLines wrapped)) wrapped :=
  (splitAssertions_statements (by decide +kernel)).mpr
    ⟨by decide +kernel, by decide +kernel, by decide +kernel, by decide +kernel⟩

/-- An assertion that a backslash continues, and another. -/
private def continued : List LogicalLine :=
  [⟨[js "assert f(1) == \\", js "    2"], by decide +kernel⟩, ⟨[js "assert g() == 3"], by decide +kernel⟩]

/-- The two come out as one assertion. -/
theorem continued_assertion_glued :
    (splitAssertions (joinWith (js "\n") (physicalLines continued))).assertions =
        [⟨joinWith (js "\n") (physicalLines continued), 1⟩] ∧
      linesOf (joinWith (js "\n") (physicalLines continued)) = physicalLines continued ∧
        ¬ SplitsStatements (joinWith (js "\n") (physicalLines continued)) continued := by
  refine ⟨by decide +kernel, by decide +kernel, ?_⟩
  intro split
  exact absurd split.marks (by decide +kernel)

end Assaybank.Interchange
