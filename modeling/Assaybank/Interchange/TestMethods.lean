import Assaybank.Interchange.Assertions

/-!
Owns the splitting of a `unittest` module into test methods (`splitTestMethods` in
`apps/worker/src/interchange/datasets/assertions.ts`), and where each physical line of the module
goes: into the preamble, into a method, or nowhere.

Contract: what the splitter returns is the lines by where they go (`splitTestMethods_destinations`).
-/

namespace Assaybank.Interchange

open Assaybank.Runtime Assaybank.Library.Python

/-! ### The lines the splitter looks for -/

/-- `\w`. -/
def isWordUnit (c : CodeUnit) : Bool := isAlpha c || isDigit c || c == unit '_'

/-- `/^class\s+([A-Za-z_]\w*)\s*(\(|:)/u`, and the name it captures. -/
def CLASS (line : JsString) : Option JsString :=
  let after := line.drop 5
  let name := (trimStart after).takeWhile isWordUnit
  let follow := trimStart ((trimStart after).dropWhile isWordUnit)
  if (js "class").isPrefixOf line && after.head?.any isSpace &&
      name.head?.any (fun c => isAlpha c || c == unit '_') &&
        follow.head?.any (fun c => c == unit '(' || c == unit ':') then
    some name
  else none

/-- `/^(\s+)def\s+(test\w*)\s*\(/u`, and what it captures. -/
def TEST_DEF (line : JsString) : Option (JsString × JsString) :=
  let lead := line.takeWhile isSpace
  let after := (line.dropWhile isSpace).drop 3
  let name := (trimStart after).takeWhile isWordUnit
  let follow := trimStart ((trimStart after).dropWhile isWordUnit)
  if lead != [] && (js "def").isPrefixOf (line.dropWhile isSpace) && after.head?.any isSpace &&
      (js "test").isPrefixOf name && follow.head? == some (unit '(') then
    some (lead, name)
  else none

/-- `line.length - line.trimStart().length`. -/
def indentOf (line : JsString) : Nat := line.length - (trimStart line).length

/-! ### The splitter -/

structure TestMethod where
  name : JsString
  code : JsString
  /-- The number of its `def` line, from one. -/
  line : Nat
deriving DecidableEq

/-- The method whose lines are being collected. -/
structure CurrentMethod where
  name : JsString
  lines : List JsString
  line : Nat
  indent : Nat

def CurrentMethod.done (current : CurrentMethod) : TestMethod :=
  ⟨current.name, linesCode current.lines, current.line⟩

structure MethodState where
  preamble : List JsString
  methods : List TestMethod
  className : Option JsString
  inClass : Bool
  current : Option CurrentMethod

def MethodState.start : MethodState := ⟨[], [], none, false, none⟩

def MethodState.close (state : MethodState) : MethodState :=
  match state.current with
  | none => state
  | some current => { state with methods := state.methods ++ [current.done], current := none }

/-- One line, with its position from zero and whether it is structural. -/
def MethodState.next (state : MethodState) (line : JsString) (index : Nat) (structural : Bool) :
    MethodState :=
  if structural && (CLASS line).isSome then
    let state := state.close
    { state with
      className := if state.className = none then CLASS line else state.className
      inClass := true }
  else
    match (if structural then TEST_DEF line else none), state.inClass with
    | some (lead, name), true =>
        { state.close with current := some ⟨name, [line], index + 1, lead.length⟩ }
    | _, _ =>
        match state.current with
        | some current =>
            if trim line ≠ [] ∧ structural ∧ indentOf line ≤ current.indent then
              { state.close with preamble := state.preamble ++ [line] }
            else { state with current := some { current with lines := current.lines ++ [line] } }
        | none =>
            if state.inClass then state else { state with preamble := state.preamble ++ [line] }

def methodsFrom (state : MethodState) (index : Nat) : List (JsString × Bool) → MethodState
  | [] => state
  | (line, structural) :: rest => methodsFrom (state.next line index structural) (index + 1) rest

structure TestModule where
  preamble : JsString
  className : Option JsString
  methods : List TestMethod
deriving DecidableEq

def splitTestMethods (source : JsString) : TestModule :=
  let lines := linesOf source
  let state := (methodsFrom .start 0 (lines.zip (structuralLines lines))).close
  ⟨linesCode state.preamble, state.className, state.methods⟩

/-! ### Where a line goes -/

inductive Destination where
  | preamble
  /-- The method of some position in the result. -/
  | method (position : Nat)
  | dropped
deriving DecidableEq

/-- What of the splitter's state decides where a line goes: whether a class has been seen, the
indentation of the open method's `def`, and how many methods are closed. -/
structure Control where
  inClass : Bool
  current : Option Nat
  closed : Nat
deriving DecidableEq

namespace Control

def start : Control := ⟨false, none, 0⟩

/-- How many methods have been started. -/
def started (control : Control) : Nat := control.closed + control.current.isSome.toNat

/-- Where a line goes that changes nothing. -/
def settled (control : Control) : Destination :=
  if control.current.isSome then .method control.closed
  else if control.inClass then .dropped
  else .preamble

/-- A line that starts a test method. -/
def starts (control : Control) (line : JsString) (structural : Bool) : Bool :=
  structural && (CLASS line).isNone && control.inClass && (TEST_DEF line).isSome

/-- A line that ends the open method and goes into the preamble. -/
def closes (control : Control) (line : JsString) (structural : Bool) : Bool :=
  structural && (CLASS line).isNone && !control.starts line structural && trim line != [] &&
    control.current.any fun indent => decide (indentOf line ≤ indent)

def place (control : Control) (line : JsString) (structural : Bool) : Destination :=
  if structural && (CLASS line).isSome then .dropped
  else if control.starts line structural then .method control.started
  else if control.closes line structural then .preamble
  else control.settled

def next (control : Control) (line : JsString) (structural : Bool) : Control :=
  if structural && (CLASS line).isSome then ⟨true, none, control.started⟩
  else if control.starts line structural then
    ⟨control.inClass, some (line.takeWhile isSpace).length, control.started⟩
  else if control.closes line structural then ⟨control.inClass, none, control.started⟩
  else control

end Control

/-- Every line with where it goes. -/
def destinationsFrom (control : Control) : List (JsString × Bool) → List (JsString × Destination)
  | [] => []
  | (line, structural) :: rest =>
      (line, control.place line structural) :: destinationsFrom (control.next line structural) rest

/-- The control after some lines. -/
def controlAfter (control : Control) (lines : List (JsString × Bool)) : Control :=
  lines.foldl (fun control line => control.next line.1 line.2) control

/-- The lines that go to some place. -/
def linesTo (destination : Destination) (taken : List (JsString × Destination)) : List JsString :=
  (taken.filter fun line => line.2 == destination).map Prod.fst

/-! ### The result, by where its lines go -/

def MethodState.control (state : MethodState) : Control :=
  ⟨state.inClass, state.current.map CurrentMethod.indent, state.methods.length⟩

private theorem TEST_DEF_lead {line lead name : JsString}
    (found : TEST_DEF line = some (lead, name)) : lead = line.takeWhile isSpace := by
  unfold TEST_DEF at found
  simp only at found
  split at found
  · exact (Prod.mk.inj (Option.some.inj found)).1.symm
  · cases found

section Step

variable {state : MethodState} {line : JsString} {index : Nat} {structural : Bool}

private theorem control_close :
    state.close.control = ⟨state.inClass, none, state.control.started⟩ := by
  unfold MethodState.close
  cases open_ : state.current with
  | none => simp [MethodState.control, Control.started, open_]
  | some current => simp [MethodState.control, Control.started, open_]

private theorem next_class (header : (structural && (CLASS line).isSome) = true) :
    state.next line index structural =
      { state.close with
        className := if state.close.className = none then CLASS line else state.close.className
        inClass := true } := by
  rw [MethodState.next, if_pos header]

private theorem next_starts (starts : state.control.starts line structural = true) (index : Nat) :
    ∃ name, state.next line index structural =
      { state.close with
        current := some ⟨name, [line], index + 1, (line.takeWhile isSpace).length⟩ } := by
  simp only [Control.starts, Bool.and_eq_true, Option.isNone_iff_eq_none, MethodState.control]
    at starts
  obtain ⟨⟨⟨seen, plain⟩, inClass⟩, found⟩ := starts
  obtain ⟨⟨lead, name⟩, found⟩ := Option.isSome_iff_exists.mp found
  refine ⟨name, ?_⟩
  rw [MethodState.next, plain, if_neg (by simp), if_pos seen, found, inClass, TEST_DEF_lead found]

/-- A line that is neither a class header nor the start of a test method. -/
private theorem next_other (plain : ¬ (structural && (CLASS line).isSome) = true)
    (other : ¬ state.control.starts line structural = true) :
    state.next line index structural =
      match state.current with
      | some current =>
          if trim line ≠ [] ∧ structural ∧ indentOf line ≤ current.indent then
            { state.close with preamble := state.preamble ++ [line] }
          else { state with current := some { current with lines := current.lines ++ [line] } }
      | none =>
          if state.inClass then state else { state with preamble := state.preamble ++ [line] } := by
  rw [MethodState.next, if_neg plain]
  split
  · rename_i lead name found inClass
    exfalso
    cases structural with
    | false => cases found
    | true =>
        rw [if_pos rfl] at found
        apply other
        simp only [Bool.true_and, Bool.not_eq_true, Option.isSome_eq_false_iff] at plain
        simp [Control.starts, MethodState.control, plain, inClass, found]
  · rfl

private theorem closes_iff (plain : ¬ (structural && (CLASS line).isSome) = true)
    (other : ¬ state.control.starts line structural = true) :
    state.control.closes line structural = true ↔
      ∃ current, state.current = some current ∧
        trim line ≠ [] ∧ structural = true ∧ indentOf line ≤ current.indent := by
  have unstarted : state.control.starts line structural = false := by simpa using other
  cases structural with
  | false => simp [Control.closes]
  | true =>
      have noClass : (CLASS line).isNone = true := by simpa using plain
      rw [Control.closes, unstarted, noClass]
      cases open_ : state.current with
      | none => simp [MethodState.control, open_]
      | some current => simp [MethodState.control, open_]

/-- The splitter's state changes as its control does. -/
private theorem control_next :
    (state.next line index structural).control = state.control.next line structural := by
  unfold Control.next
  by_cases header : (structural && (CLASS line).isSome) = true
  · rw [if_pos header, next_class header]
    have closed := @control_close state
    simp only [MethodState.control, Control.mk.injEq] at closed ⊢
    exact ⟨trivial, closed.2.1, closed.2.2⟩
  · rw [if_neg header]
    by_cases starts : state.control.starts line structural = true
    · obtain ⟨name, next⟩ := next_starts starts index
      have closed := @control_close state
      rw [if_pos starts, next]
      simp only [MethodState.control, Control.mk.injEq] at closed ⊢
      exact ⟨closed.1, rfl, closed.2.2⟩
    · rw [if_neg starts, next_other header starts]
      by_cases closes : state.control.closes line structural = true
      · obtain ⟨current, open_, ends⟩ := (closes_iff header starts).mp closes
        have closed := @control_close state
        rw [if_pos closes, open_]
        simp only [if_pos ends]
        exact closed
      · rw [if_neg closes]
        cases open_ : state.current with
        | none =>
            simp only
            split
            · rfl
            · simp [MethodState.control, open_]
        | some current =>
            have goesOn : ¬ (trim line ≠ [] ∧ structural = true ∧ indentOf line ≤ current.indent) :=
              fun ends => closes ((closes_iff header starts).mpr ⟨current, open_, ends⟩)
            simp only [if_neg goesOn]
            simp [MethodState.control, open_]

end Step

/-- What has been collected is the lines taken so far, by where they went. -/
private structure Collected (state : MethodState) (taken : List (JsString × Destination)) :
    Prop where
  preamble : state.preamble = linesTo .preamble taken
  methods : state.methods.map TestMethod.code =
    (List.range state.methods.length).map fun position =>
      linesCode (linesTo (.method position) taken)
  current : ∀ current, state.current = some current →
    current.lines = linesTo (.method state.methods.length) taken
  bound : ∀ line ∈ taken, ∀ position, line.2 = .method position → position < state.control.started

private theorem linesTo_append (destination other : Destination)
    (taken : List (JsString × Destination)) (line : JsString) :
    linesTo destination (taken ++ [(line, other)]) =
      linesTo destination taken ++ if other = destination then [line] else [] := by
  by_cases same : other = destination
  · subst same
    simp [linesTo]
  · simp [linesTo, same]

private theorem linesTo_unstarted {state : MethodState} {taken : List (JsString × Destination)}
    (collected : Collected state taken) :
    linesTo (.method state.control.started) taken = [] := by
  rw [linesTo, List.map_eq_nil_iff, List.filter_eq_nil_iff]
  intro line inside goes
  exact absurd (collected.bound line inside _ (beq_iff_eq.mp goes)) (lt_irrefl _)

private theorem length_close (state : MethodState) :
    state.close.methods.length = state.control.started :=
  congrArg Control.closed (@control_close state)

/-- Closing a method collects what was taken for it. -/
private theorem Collected.close {state : MethodState} {taken : List (JsString × Destination)}
    (collected : Collected state taken) :
    state.close.methods.map TestMethod.code =
      (List.range state.control.started).map fun position =>
        linesCode (linesTo (.method position) taken) := by
  unfold MethodState.close
  cases open_ : state.current with
  | none =>
      have started : state.control.started = state.methods.length := by
        simp [Control.started, MethodState.control, open_]
      rw [started]
      exact collected.methods
  | some current =>
      have started : state.control.started = state.methods.length + 1 := by
        simp [Control.started, MethodState.control, open_]
      rw [started, List.range_succ, List.map_append, List.map_append, collected.methods,
        List.map_singleton, List.map_singleton, CurrentMethod.done, collected.current current open_]

private theorem close_preamble (state : MethodState) : state.close.preamble = state.preamble := by
  unfold MethodState.close
  cases state.current with
  | none => rfl
  | some current => rfl

private theorem codes_append {count : Nat} {destination : Destination}
    (fresh : ∀ position < count, destination ≠ .method position)
    (taken : List (JsString × Destination)) (line : JsString) :
    ((List.range count).map fun position =>
        linesCode (linesTo (.method position) (taken ++ [(line, destination)]))) =
      (List.range count).map fun position => linesCode (linesTo (.method position) taken) := by
  apply List.map_congr_left
  intro position inside
  rw [linesTo_append, if_neg (fresh position (List.mem_range.mp inside)), List.append_nil]

private theorem bound_append {count : Nat} {destination : Destination}
    {taken : List (JsString × Destination)} {line : JsString}
    (bound : ∀ line ∈ taken, ∀ position, line.2 = .method position → position < count)
    (new : ∀ position, destination = .method position → position < count) :
    ∀ other ∈ taken ++ [(line, destination)], ∀ position,
      other.2 = .method position → position < count := by
  intro other inside position goes
  rcases List.mem_append.mp inside with before | here
  · exact bound other before position goes
  · rw [List.mem_singleton.mp here] at goes
    exact new position goes

/-- One line goes where its destination says. -/
private theorem collected_next {state : MethodState} {taken : List (JsString × Destination)}
    (collected : Collected state taken) (line : JsString) (index : Nat) (structural : Bool) :
    Collected (state.next line index structural)
      (taken ++ [(line, state.control.place line structural)]) := by
  unfold Control.place
  by_cases header : (structural && (CLASS line).isSome) = true
  · have started : (state.next line index structural).control.started = state.control.started := by
      rw [control_next, Control.next, if_pos header]
      rfl
    rw [if_pos header]
    refine ⟨?_, ?_, ?_, ?_⟩
    · rw [linesTo_append, if_neg (by simp), List.append_nil, next_class header]
      exact (close_preamble state).trans collected.preamble
    · rw [next_class header]
      show state.close.methods.map TestMethod.code = (List.range state.close.methods.length).map _
      rw [length_close, codes_append (by simp)]
      exact collected.close
    · intro current open_
      rw [next_class header] at open_
      have closed := congrArg Control.current (@control_close state)
      simp only [MethodState.control, Option.map_eq_none_iff] at closed
      exact absurd (open_.symm.trans closed) (by simp)
    · rw [started]
      exact bound_append collected.bound (by simp)
  · rw [if_neg header]
    by_cases starts : state.control.starts line structural = true
    · obtain ⟨name, next⟩ := next_starts starts index
      have started : (state.next line index structural).control.started =
          state.control.started + 1 := by
        rw [control_next, Control.next, if_neg header, if_pos starts]
        rfl
      rw [if_pos starts]
      refine ⟨?_, ?_, ?_, ?_⟩
      · rw [next, linesTo_append, if_neg (by simp), List.append_nil]
        exact (close_preamble state).trans collected.preamble
      · rw [next]
        show state.close.methods.map TestMethod.code = (List.range state.close.methods.length).map _
        rw [length_close, codes_append]
        · exact collected.close
        · intro position below same
          exact absurd (Destination.method.inj same) (Nat.ne_of_gt below)
      · intro current open_
        rw [next] at open_ ⊢
        rw [← Option.some.inj open_]
        show [line] = linesTo (.method state.close.methods.length) _
        rw [length_close, linesTo_append, if_pos rfl, linesTo_unstarted collected]
        rfl
      · rw [started]
        apply bound_append
        · intro other inside position goes
          exact Nat.lt_succ_of_lt (collected.bound other inside position goes)
        · intro position same
          rw [← Destination.method.inj same]
          exact Nat.lt_succ_self _
    · rw [if_neg starts]
      by_cases closes : state.control.closes line structural = true
      · obtain ⟨current, open_, ends⟩ := (closes_iff header starts).mp closes
        have next : state.next line index structural =
            { state.close with preamble := state.preamble ++ [line] } := by
          rw [next_other header starts, open_]
          simp only [if_pos ends]
        have started : (state.next line index structural).control.started =
            state.control.started := by
          rw [control_next, Control.next, if_neg header, if_neg starts, if_pos closes]
          rfl
        rw [if_pos closes]
        refine ⟨?_, ?_, ?_, ?_⟩
        · rw [next, linesTo_append, if_pos rfl, ← collected.preamble]
        · rw [next]
          show state.close.methods.map TestMethod.code =
            (List.range state.close.methods.length).map _
          rw [length_close, codes_append (by simp)]
          exact collected.close
        · intro other still
          rw [next] at still
          have closed := congrArg Control.current (@control_close state)
          simp only [MethodState.control, Option.map_eq_none_iff] at closed
          exact absurd (still.symm.trans closed) (by simp)
        · rw [started]
          exact bound_append collected.bound (by simp)
      · have started : (state.next line index structural).control.started =
            state.control.started := by
          rw [control_next, Control.next, if_neg header, if_neg starts, if_neg closes]
        rw [if_neg closes]
        cases open_ : state.current with
        | some current =>
            have goesOn : ¬ (trim line ≠ [] ∧ structural = true ∧ indentOf line ≤ current.indent) :=
              fun ends => closes ((closes_iff header starts).mpr ⟨current, open_, ends⟩)
            have next : state.next line index structural =
                { state with current := some { current with lines := current.lines ++ [line] } } := by
              rw [next_other header starts, open_]
              simp only [if_neg goesOn]
            have settled : state.control.settled = .method state.methods.length := by
              simp [Control.settled, MethodState.control, open_]
            have counted : state.control.started = state.methods.length + 1 := by
              simp [Control.started, MethodState.control, open_]
            rw [settled]
            refine ⟨?_, ?_, ?_, ?_⟩
            · rw [next, linesTo_append, if_neg (by simp), List.append_nil]
              exact collected.preamble
            · rw [next]
              show state.methods.map TestMethod.code = (List.range state.methods.length).map _
              rw [codes_append]
              · exact collected.methods
              · intro position below same
                exact absurd (Destination.method.inj same) (Nat.ne_of_gt below)
            · intro other still
              rw [next] at still ⊢
              rw [← Option.some.inj still, linesTo_append, if_pos rfl,
                ← collected.current current open_]
            · rw [started]
              apply bound_append collected.bound
              intro position same
              rw [← Destination.method.inj same, counted]
              exact Nat.lt_succ_self _
        | none =>
            by_cases inClass : state.inClass = true
            · have next : state.next line index structural = state := by
                rw [next_other header starts, open_]
                simp only [if_pos inClass]
              have settled : state.control.settled = .dropped := by
                simp [Control.settled, MethodState.control, open_, inClass]
              rw [settled, next]
              refine ⟨?_, ?_, ?_, bound_append collected.bound (by simp)⟩
              · rw [linesTo_append, if_neg (by simp), List.append_nil]
                exact collected.preamble
              · rw [codes_append (by simp)]
                exact collected.methods
              · intro current still
                rw [open_] at still
                cases still
            · have next : state.next line index structural =
                  { state with preamble := state.preamble ++ [line] } := by
                rw [next_other header starts, open_]
                simp only [if_neg inClass]
              have settled : state.control.settled = .preamble := by
                simp [Control.settled, MethodState.control, open_, inClass]
              rw [settled]
              refine ⟨?_, ?_, ?_, ?_⟩
              · rw [next, linesTo_append, if_pos rfl, ← collected.preamble]
              · rw [next]
                show state.methods.map TestMethod.code = (List.range state.methods.length).map _
                rw [codes_append (by simp)]
                exact collected.methods
              · intro current still
                rw [next] at still
                exact absurd (still.symm.trans open_) (by simp)
              · rw [started]
                exact bound_append collected.bound (by simp)

private theorem collected_methodsFrom {state : MethodState} {taken : List (JsString × Destination)}
    (collected : Collected state taken) (index : Nat) (lines : List (JsString × Bool)) :
    Collected (methodsFrom state index lines) (taken ++ destinationsFrom state.control lines) := by
  induction lines generalizing state taken index with
  | nil =>
      rw [destinationsFrom, List.append_nil]
      exact collected
  | cons line rest inductionHypothesis =>
      obtain ⟨text, structural⟩ := line
      have next := inductionHypothesis (collected_next collected text index structural) (index + 1)
      rw [control_next, List.append_assoc] at next
      exact next

private theorem control_methodsFrom (state : MethodState) (index : Nat)
    (lines : List (JsString × Bool)) :
    (methodsFrom state index lines).control = controlAfter state.control lines := by
  induction lines generalizing state index with
  | nil => rfl
  | cons line rest inductionHypothesis =>
      obtain ⟨text, structural⟩ := line
      rw [methodsFrom, inductionHypothesis, control_next]
      rfl

/-- Every method that was started is in the result. -/
theorem splitTestMethods_length (source : JsString) :
    (splitTestMethods source).methods.length =
      (controlAfter .start ((linesOf source).zip (structuralLines (linesOf source)))).started := by
  show (MethodState.close _).methods.length = _
  rw [length_close, control_methodsFrom]
  rfl

/-- Where every physical line of a module goes. -/
def destinations (source : JsString) : List (JsString × Destination) :=
  destinationsFrom .start ((linesOf source).zip (structuralLines (linesOf source)))

/-- The preamble and the methods are the lines that go there. -/
theorem splitTestMethods_destinations (source : JsString) :
    (splitTestMethods source).preamble = linesCode (linesTo .preamble (destinations source)) ∧
      (splitTestMethods source).methods.map TestMethod.code =
        (List.range (splitTestMethods source).methods.length).map fun position =>
          linesCode (linesTo (.method position) (destinations source)) := by
  have empty : Collected .start [] := ⟨rfl, rfl, fun _ impossible => (by cases impossible),
    fun _ impossible => (by cases impossible)⟩
  have collected := collected_methodsFrom empty 0
    ((linesOf source).zip (structuralLines (linesOf source)))
  have whole := collected.close
  rw [List.nil_append] at collected whole
  constructor
  · show linesCode (MethodState.close _).preamble = _
    rw [close_preamble, collected.preamble]
    rfl
  · show (MethodState.close _).methods.map TestMethod.code =
      (List.range (MethodState.close _).methods.length).map _
    rw [length_close, whole]
    rfl

end Assaybank.Interchange
