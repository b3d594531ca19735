import Assaybank.Interchange.TestMethods
import Mathlib.Data.List.Induction

/-!
Owns the logical lines of a test module: what is inside a class, what is in the body of a header or
under a decorator, and where the splitter's control takes each line.

Contract: the physical lines of a module go where its logical lines do (`destinations_scanned`).

Indentation is measured as the splitter measures it, by the white space before the first visible
unit; where tabulators and spaces are not mixed the language orders lines in the same way.
-/

namespace Assaybank.Interchange

open Assaybank.Runtime Assaybank.Library.Python

/-! ### The shape of a module -/

namespace Scanned

/-- How deep a line is indented. -/
def leading (here : Scanned) : Nat := indentOf here.line.first

/-- Neither blank nor a comment. -/
def isCode (here : Scanned) : Bool := (trimStart here.line.first).head?.any (· != unit '#')

def isDecorator (here : Scanned) : Bool := (trimStart here.line.first).head? == some (unit '@')

def isClass (here : Scanned) : Bool := (CLASS here.line.first).isSome

/-- What a decorator applies to. -/
def decorates (header here : Scanned) : Bool :=
  header.isDecorator && header.leading == here.leading

/-- Whether a line of code can follow another in its body. -/
def holds (header here : Scanned) : Bool :=
  header.decorates here || decide (header.leading < here.leading)

end Scanned

/-- The next line of code. -/
def nextCode (after : List Scanned) : Option Scanned := after.find? Scanned.isCode

/-- Whether a line is in the body of a header, or under a decorator: given what stands between, and
what follows it. A comment is when code of the body follows. -/
def inBody (header : Scanned) : List Scanned → Scanned → List Scanned → Bool
  | [], here, after =>
      if here.isCode then header.holds here else (nextCode after).any header.holds
  | next :: between, here, after =>
      if next.isCode then
        if header.decorates next then inBody next between here after
        else decide (header.leading < next.leading) && inBody header between here after
      else inBody header between here after

/-- Whether a line is in the body of a class, given what stands between the class header and it, and
what follows it. -/
def inClassBody (between : List Scanned) (here : Scanned) (after : List Scanned) : Bool :=
  (between.all fun line => !line.isCode || decide (0 < line.leading)) &&
    (decide (0 < here.leading) ||
      !here.isCode && (nextCode after).any fun line => decide (0 < line.leading))

/-! ### Where a logical line goes -/

def Control.after (control : Control) (here : Scanned) : Control :=
  control.next here.line.first here.seen

/-- The control before a line, given the lines above it. -/
def controlAt (above : List Scanned) : Control := above.foldl Control.after .start

/-- Where its first physical line goes. -/
def placeAt (above : List Scanned) (here : Scanned) : Destination :=
  (controlAt above).place here.line.first here.seen

/-- Whether all physical lines of a logical line go to some place. -/
def GoesTo (above : List Scanned) (here : Scanned) (destination : Destination) : Prop :=
  placeAt above here = destination ∧
    (here.line.physical.tail ≠ [] → ((controlAt above).after here).settled = destination)

/-- A line that starts a test method. -/
def startsAt (above : List Scanned) (here : Scanned) : Bool :=
  (controlAt above).starts here.line.first here.seen

/-- A line that ends a test method and is put into the preamble. -/
def closesAt (above : List Scanned) (here : Scanned) : Bool :=
  (controlAt above).closes here.line.first here.seen

/-- Where the physical lines of logical lines go. -/
def destinationsOf (control : Control) : List Scanned → List (JsString × Destination)
  | [] => []
  | here :: rest =>
      (here.line.first, control.place here.line.first here.seen) ::
        here.line.physical.tail.map (fun line => (line, (control.after here).settled)) ++
          destinationsOf (control.after here) rest

/-! ### One line -/

private theorem indentOf_eq (line : JsString) :
    indentOf line = (line.takeWhile isSpace).length := by
  have split := congrArg List.length (List.takeWhile_append_dropWhile (p := isSpace) (l := line))
  rw [List.length_append] at split
  rw [indentOf, trimStart]
  omega

theorem isClass_facts {here : Scanned} (header : here.isClass = true) :
    here.isCode = true ∧ here.isDecorator = false ∧ here.leading = 0 := by
  have word : (js "class").isPrefixOf here.line.first = true := by
    unfold Scanned.isClass CLASS at header
    simp only at header
    split at header
    · rename_i matched
      simp only [Bool.and_eq_true] at matched
      exact matched.1.1.1
    · cases header
  obtain ⟨rest, same⟩ := List.isPrefixOf_iff_prefix.mp word
  have visible : trimStart here.line.first = here.line.first := by
    rw [← same]
    rfl
  refine ⟨?_, ?_, ?_⟩
  · rw [Scanned.isCode, visible, ← same]
    rfl
  · rw [Scanned.isDecorator, visible, ← same]
    rfl
  · rw [Scanned.leading, indentOf, visible, Nat.sub_self]

theorem starts_facts {control : Control} {here : Scanned}
    (starts : control.starts here.line.first here.seen = true) :
    here.seen = true ∧ here.isClass = false ∧ here.isCode = true ∧ here.isDecorator = false ∧
      0 < here.leading ∧ control.inClass = true := by
  simp only [Control.starts, Bool.and_eq_true] at starts
  obtain ⟨⟨⟨seen, plain⟩, inClass⟩, found⟩ := starts
  have shape : here.line.first.takeWhile isSpace ≠ [] ∧
      (js "def").isPrefixOf (here.line.first.dropWhile isSpace) = true := by
    unfold TEST_DEF at found
    simp only at found
    split at found
    · rename_i matched
      simp only [Bool.and_eq_true, bne_iff_ne] at matched
      exact ⟨matched.1.1.1.1, matched.1.1.1.2⟩
    · cases found
  obtain ⟨rest, same⟩ := List.isPrefixOf_iff_prefix.mp shape.2
  refine ⟨seen, ?_, ?_, ?_, ?_, inClass⟩
  · rw [Scanned.isClass, ← Option.not_isNone, plain]
    rfl
  · rw [Scanned.isCode, trimStart, ← same]
    rfl
  · rw [Scanned.isDecorator, trimStart, ← same]
    rfl
  · rw [Scanned.leading, indentOf_eq]
    exact List.length_pos_iff.mpr shape.1

/-! ### Bodies -/

theorem nextCode_cons (here : Scanned) (after : List Scanned) :
    nextCode (here :: after) = if here.isCode then some here else nextCode after := by
  unfold nextCode
  cases code : here.isCode with
  | true => rw [List.find?_cons_of_pos code, if_pos rfl]
  | false => rw [List.find?_cons_of_neg (by simp [code]), if_neg (by simp)]

private theorem inBody_nil (header here : Scanned) (after : List Scanned) :
    inBody header [] here after = (nextCode (here :: after)).any header.holds := by
  rw [inBody, nextCode_cons]
  split
  · rfl
  · rfl

private theorem inBody_skip {next : Scanned} (other : next.isCode = false) (header here : Scanned)
    (between after : List Scanned) :
    inBody header (next :: between) here after = inBody header between here after := by
  rw [inBody, other, if_neg (by simp)]

private theorem inBody_decorated {header next : Scanned} (code : next.isCode = true)
    (decorates : header.decorates next = true) (between : List Scanned) (here : Scanned)
    (after : List Scanned) :
    inBody header (next :: between) here after = inBody next between here after := by
  rw [inBody, if_pos code, if_pos decorates]

private theorem inBody_deeper {header next : Scanned} (code : next.isCode = true)
    (other : ¬ header.decorates next = true) (between : List Scanned) (here : Scanned)
    (after : List Scanned) :
    inBody header (next :: between) here after =
      (decide (header.leading < next.leading) && inBody header between here after) := by
  rw [inBody, if_pos code, if_neg other]

/-- The first line of code on the way to a line of the body is held. -/
private theorem holds_of_inBody {header here : Scanned} {between after : List Scanned}
    (inside : inBody header between here after = true) :
    (nextCode (between ++ here :: after)).any header.holds = true := by
  induction between with
  | nil =>
      rw [inBody_nil] at inside
      exact inside
  | cons next between inductionHypothesis =>
      rw [List.cons_append, nextCode_cons]
      cases code : next.isCode with
      | false =>
          rw [inBody_skip code] at inside
          rw [if_neg (by simp)]
          exact inductionHypothesis inside
      | true =>
          rw [if_pos rfl, Option.any_some, Scanned.holds]
          by_cases decorates : header.decorates next = true
          · rw [decorates, Bool.true_or]
          · rw [inBody_deeper code decorates, Bool.and_eq_true] at inside
            rw [inside.1, Bool.or_true]

/-- What stands on the way to a line of the body is in the body. -/
theorem inBody_within {header here other : Scanned} {first second after : List Scanned}
    (inside : inBody header (first ++ other :: second) here after = true) :
    inBody header first other (second ++ here :: after) = true := by
  induction first generalizing header with
  | nil =>
      rw [inBody_nil]
      exact holds_of_inBody inside
  | cons next first inductionHypothesis =>
      rw [List.cons_append] at inside
      cases code : next.isCode with
      | false =>
          rw [inBody_skip code] at inside ⊢
          exact inductionHypothesis inside
      | true =>
          by_cases decorates : header.decorates next = true
          · rw [inBody_decorated code decorates] at inside ⊢
            exact inductionHypothesis inside
          · rw [inBody_deeper code decorates, Bool.and_eq_true] at inside ⊢
            exact ⟨inside.1, inductionHypothesis inside.2⟩

/-- The body is as deep as its header, and deeper unless this is a decorator. -/
theorem inBody_depth {header here : Scanned} {between after : List Scanned}
    (inside : inBody header between here after = true) :
    ∃ code, nextCode (here :: after) = some code ∧ header.leading ≤ code.leading ∧
      (header.isDecorator = false → header.leading < code.leading) := by
  induction between generalizing header with
  | nil =>
      rw [inBody_nil, Option.any_eq_true] at inside
      obtain ⟨code, found, holds⟩ := inside
      refine ⟨code, found, ?_⟩
      rw [Scanned.holds, Scanned.decorates, Bool.or_eq_true, Bool.and_eq_true, beq_iff_eq,
        decide_eq_true_eq] at holds
      rcases holds with ⟨decorator, same⟩ | deeper
      · refine ⟨Nat.le_of_eq same, fun plain => ?_⟩
        rw [decorator] at plain
        cases plain
      · exact ⟨Nat.le_of_lt deeper, fun _ => deeper⟩
  | cons next between inductionHypothesis =>
      cases code : next.isCode with
      | false =>
          rw [inBody_skip code] at inside
          exact inductionHypothesis inside
      | true =>
          by_cases decorates : header.decorates next = true
          · rw [inBody_decorated code decorates] at inside
            rw [Scanned.decorates, Bool.and_eq_true, beq_iff_eq] at decorates
            obtain ⟨line, found, depth, _⟩ := inductionHypothesis inside
            refine ⟨line, found, decorates.2 ▸ depth, fun plain => ?_⟩
            rw [decorates.1] at plain
            cases plain
          · rw [inBody_deeper code decorates, Bool.and_eq_true] at inside
            exact inductionHypothesis inside.2

/-- Lines that are all deeper than a line are in its body. -/
theorem inBody_of_deeper {header here : Scanned} {between : List Scanned}
    (deeper : ∀ line ∈ between ++ [here], line.isCode = true → header.leading < line.leading)
    (code : here.isCode = true) (after : List Scanned) :
    inBody header between here after = true := by
  induction between with
  | nil =>
      rw [inBody_nil, nextCode_cons, if_pos code, Option.any_some, Scanned.holds,
        decide_eq_true (deeper here (by simp) code), Bool.or_true]
  | cons next between inductionHypothesis =>
      rw [List.cons_append, List.forall_mem_cons] at deeper
      cases isCode : next.isCode with
      | false =>
          rw [inBody_skip isCode]
          exact inductionHypothesis deeper.2
      | true =>
          have depth := deeper.1 isCode
          have plain : ¬ header.decorates next = true := by
            rw [Scanned.decorates, Bool.and_eq_true, beq_iff_eq]
            exact fun decorates => absurd decorates.2 (Nat.ne_of_lt depth)
          rw [inBody_deeper isCode plain, decide_eq_true depth, Bool.true_and]
          exact inductionHypothesis deeper.2

/-! ### The control, line by line -/

namespace Control

/-- The three kinds of line that change the control, and all others. -/
theorem step_cases (control : Control) (line : JsString) (structural : Bool) :
    ((structural = true ∧ (CLASS line).isSome = true) ∧
        control.place line structural = .dropped ∧
        control.next line structural = ⟨true, none, control.started⟩) ∨
      (control.starts line structural = true ∧
        control.place line structural = .method control.started ∧
        control.next line structural = ⟨control.inClass, some (indentOf line), control.started⟩) ∨
      (control.closes line structural = true ∧
        control.place line structural = .preamble ∧
        control.next line structural = ⟨control.inClass, none, control.started⟩) ∨
      (¬ (structural = true ∧ (CLASS line).isSome = true) ∧
        ¬ control.starts line structural = true ∧ ¬ control.closes line structural = true ∧
        control.place line structural = control.settled ∧
        control.next line structural = control) := by
  rw [indentOf_eq, Control.place, Control.next, ← Bool.and_eq_true]
  by_cases header : (structural && (CLASS line).isSome) = true
  · refine .inl ⟨header, ?_, ?_⟩
    · rw [if_pos header]
    · rw [if_pos header]
  · rw [if_neg header, if_neg header]
    by_cases starts : control.starts line structural = true
    · refine .inr (.inl ⟨starts, ?_, ?_⟩)
      · rw [if_pos starts]
      · rw [if_pos starts]
    · rw [if_neg starts, if_neg starts]
      by_cases closes : control.closes line structural = true
      · refine .inr (.inr (.inl ⟨closes, ?_, ?_⟩))
        · rw [if_pos closes]
        · rw [if_pos closes]
      · refine .inr (.inr (.inr ⟨header, starts, closes, ?_, ?_⟩))
        · rw [if_neg closes]
        · rw [if_neg closes]

section Step

variable {control : Control} {line : JsString} {structural : Bool}

theorem closes_facts (closes : control.closes line structural = true) :
    structural = true ∧ (CLASS line).isSome = false ∧ trim line ≠ [] ∧
      ∃ indent, control.current = some indent ∧ indentOf line ≤ indent := by
  simp only [Control.closes, Bool.and_eq_true, bne_iff_ne, Option.any_eq_true, decide_eq_true_eq]
    at closes
  obtain ⟨⟨⟨⟨seen, plain⟩, _⟩, visible⟩, indent, opened, shallow⟩ := closes
  refine ⟨seen, ?_, visible, indent, opened, shallow⟩
  rw [← Option.not_isNone, plain]
  rfl

/-- A line the scanner does not take for a start changes nothing. -/
theorem step_unseen :
    control.place line false = control.settled ∧ control.next line false = control := by
  rcases step_cases control line false with
    header | starts | closes | other
  · exact absurd header.1.1 (by simp)
  · simp [Control.starts] at starts
  · simp [Control.closes] at closes
  · exact other.2.2.2

theorem inClass_next (inClass : control.inClass = true) :
    (control.next line structural).inClass = true := by
  rcases step_cases control line structural with
    ⟨_, _, next⟩ | ⟨_, _, next⟩ | ⟨_, _, next⟩ | ⟨_, _, _, _, next⟩
  · rw [next]
  · rw [next]
    exact inClass
  · rw [next]
    exact inClass
  · rw [next]
    exact inClass

theorem started_next : control.started ≤ (control.next line structural).started := by
  rcases step_cases control line structural with
    ⟨_, _, next⟩ | ⟨_, _, next⟩ | ⟨_, _, next⟩ | ⟨_, _, _, _, next⟩
  · rw [next]
    exact Nat.le_add_right _ _
  · rw [next]
    exact Nat.le_add_right _ _
  · rw [next]
    exact Nat.le_add_right _ _
  · rw [next]

theorem settled_inClass (inClass : control.inClass = true) :
    control.settled ≠ .preamble := by
  unfold Control.settled
  rw [if_pos inClass]
  split
  · simp
  · simp

/-- Below a class header only a line that ends a method goes into the preamble. -/
theorem place_eq_preamble (inClass : control.inClass = true) :
    control.place line structural = .preamble ↔ control.closes line structural = true := by
  constructor
  · intro same
    rcases step_cases control line structural with
      ⟨_, place, _⟩ | ⟨_, place, _⟩ | ⟨closes, _, _⟩ | ⟨_, _, _, place, _⟩
    · rw [place] at same
      cases same
    · rw [place] at same
      cases same
    · exact closes
    · rw [place] at same
      exact absurd same (settled_inClass inClass)
  · intro closes
    rcases step_cases control line structural with
      ⟨header, _, _⟩ | ⟨starts, _, _⟩ | ⟨_, place, _⟩ | ⟨_, _, other, _, _⟩
    · rw [(closes_facts closes).2.1] at header
      cases header.2
    · simp [Control.closes, starts] at closes
    · exact place
    · exact absurd closes other

theorem place_starts (starts : control.starts line structural = true) :
    control.place line structural = .method control.started := by
  rcases step_cases control line structural with
    ⟨header, _, _⟩ | ⟨_, place, _⟩ | ⟨closes, _, _⟩ | ⟨_, other, _⟩
  · simp only [Control.starts, Bool.and_eq_true, Option.isNone_iff_eq_none] at starts
    rw [starts.1.1.2] at header
    cases header.2
  · exact place
  · simp [Control.closes, starts] at closes
  · exact absurd starts other

/-- A line goes to a method that has been started. -/
theorem position_lt {position : Nat}
    (place : control.place line structural = .method position) :
    position < (control.next line structural).started := by
  rcases step_cases control line structural with
    ⟨_, same, _⟩ | ⟨_, same, next⟩ | ⟨_, same, _⟩ | ⟨_, _, _, same, next⟩
  · rw [same] at place
    cases place
  · rw [same, Destination.method.injEq] at place
    rw [next, ← place]
    exact Nat.lt_succ_self _
  · rw [same] at place
    cases place
  · rw [same, Control.settled] at place
    rw [next]
    split at place
    · rename_i opened
      rw [Destination.method.injEq] at place
      rw [Control.started, opened, ← place]
      exact Nat.lt_succ_self _
    · split at place
      · cases place
      · cases place

end Step

end Control

/-! ### Physical lines -/

/-- The physical lines of logical lines, and which are taken for starts. -/
private def marked (lines : List Scanned) : List (JsString × Bool) :=
  lines.flatMap fun here =>
    (here.line.first, here.seen) :: here.line.physical.tail.map fun line => (line, false)

private theorem zip_unseen (lines : List JsString) :
    lines.zip (List.replicate lines.length false) = lines.map fun line => (line, false) := by
  induction lines with
  | nil => rfl
  | cons line rest inductionHypothesis =>
      rw [List.length_cons, List.replicate_succ, List.zip_cons_cons, inductionHypothesis]
      rfl

private theorem zip_marked (lines : List Scanned) :
    (lines.flatMap fun here => here.line.physical).zip
        (lines.flatMap fun here =>
          here.seen :: List.replicate here.line.physical.tail.length false) = marked lines := by
  induction lines with
  | nil => rfl
  | cons here rest inductionHypothesis =>
      have length : here.line.physical.length =
          (here.seen :: List.replicate here.line.physical.tail.length false).length := by
        rw [List.length_cons, List.length_replicate]
        conv_lhs => rw [here.line.physical_eq_cons]
        rfl
      rw [List.flatMap_cons, List.flatMap_cons, List.zip_append length, inductionHypothesis]
      conv_lhs => rw [here.line.physical_eq_cons]
      rw [List.tail_cons, List.zip_cons_cons, zip_unseen]
      rfl

private theorem destinationsFrom_unseen (control : Control) (lines : List JsString)
    (rest : List (JsString × Bool)) :
    destinationsFrom control ((lines.map fun line => (line, false)) ++ rest) =
      (lines.map fun line => (line, control.settled)) ++ destinationsFrom control rest := by
  induction lines with
  | nil => rfl
  | cons line lines inductionHypothesis =>
      rw [List.map_cons, List.cons_append, destinationsFrom, Control.step_unseen.1,
        Control.step_unseen.2, inductionHypothesis]
      rfl

private theorem destinationsFrom_marked (control : Control) (lines : List Scanned) :
    destinationsFrom control (marked lines) = destinationsOf control lines := by
  induction lines generalizing control with
  | nil => rfl
  | cons here rest inductionHypothesis =>
      rw [destinationsOf, ← inductionHypothesis, List.cons_append, ← destinationsFrom_unseen]
      rfl

private theorem controlAfter_unseen (control : Control) (lines : List JsString) :
    controlAfter control (lines.map fun line => (line, false)) = control := by
  induction lines with
  | nil => rfl
  | cons line rest inductionHypothesis =>
      show controlAfter (control.next line false) (rest.map fun line => (line, false)) = control
      rw [Control.step_unseen.2, inductionHypothesis]

private theorem controlAfter_marked (control : Control) (lines : List Scanned) :
    controlAfter control (marked lines) = lines.foldl Control.after control := by
  induction lines generalizing control with
  | nil => rfl
  | cons here rest inductionHypothesis =>
      rw [List.foldl_cons, ← inductionHypothesis]
      show controlAfter (control.after here)
        ((here.line.physical.tail.map fun line => (line, false)) ++ marked rest) = _
      rw [controlAfter, List.foldl_append]
      exact congrArg (List.foldl _ · (marked rest)) (controlAfter_unseen _ _)

private theorem physicalLines_scannedFrom (passed : Bool) (lines : List LogicalLine) :
    physicalLines lines = (scannedFrom passed lines).flatMap fun here => here.line.physical := by
  induction lines generalizing passed with
  | nil => rfl
  | cons line rest inductionHypothesis =>
      rw [scannedFrom, List.flatMap_cons, ← inductionHypothesis]
      rfl

private theorem zip_scanned {source : JsString} {lines : List LogicalLine}
    (whole : linesOf source = physicalLines lines) :
    (linesOf source).zip (structuralLines (linesOf source)) = marked (scanned lines) := by
  rw [whole, structuralLines_scanned, physicalLines_scannedFrom false lines]
  exact zip_marked (scanned lines)

/-- The physical lines of a module go where its logical lines do. -/
theorem destinations_scanned {source : JsString} {lines : List LogicalLine}
    (whole : linesOf source = physicalLines lines) :
    destinations source = destinationsOf .start (scanned lines) := by
  rw [destinations, zip_scanned whole, destinationsFrom_marked]

theorem length_scanned {source : JsString} {lines : List LogicalLine}
    (whole : linesOf source = physicalLines lines) :
    (splitTestMethods source).methods.length = (controlAt (scanned lines)).started := by
  rw [splitTestMethods_length, zip_scanned whole, controlAfter_marked]
  rfl

/-! ### The control at a line -/

theorem controlAt_snoc (above : List Scanned) (here : Scanned) :
    controlAt (above ++ [here]) = (controlAt above).after here := by
  rw [controlAt, List.foldl_append]
  rfl

theorem inClass_append {above : List Scanned} (inClass : (controlAt above).inClass = true)
    (below : List Scanned) : (controlAt (above ++ below)).inClass = true := by
  induction below using List.reverseRecOn with
  | nil => rwa [List.append_nil]
  | append_singleton below here inductionHypothesis =>
      rw [← List.append_assoc, controlAt_snoc]
      exact Control.inClass_next inductionHypothesis

theorem started_append (above below : List Scanned) :
    (controlAt above).started ≤ (controlAt (above ++ below)).started := by
  induction below using List.reverseRecOn with
  | nil => rw [List.append_nil]
  | append_singleton below here inductionHypothesis =>
      rw [← List.append_assoc, controlAt_snoc]
      exact Nat.le_trans inductionHypothesis Control.started_next

/-- Nothing happens above the first class header. -/
theorem controlAt_outside {above : List Scanned}
    (outside : ¬ (controlAt above).inClass = true) : controlAt above = .start := by
  induction above using List.reverseRecOn with
  | nil => rfl
  | append_singleton above here inductionHypothesis =>
      rw [controlAt_snoc] at outside ⊢
      have before : controlAt above = .start :=
        inductionHypothesis fun inClass => outside (Control.inClass_next inClass)
      rw [before] at outside ⊢
      unfold Control.after at outside ⊢
      rcases Control.step_cases .start here.line.first here.seen with
        ⟨_, _, next⟩ | ⟨starts, _, _⟩ | ⟨closes, _, _⟩ | ⟨_, _, _, _, next⟩
      · rw [next] at outside
        exact absurd rfl outside
      · simp [Control.starts, Control.start] at starts
      · obtain ⟨_, _, _, indent, opened, _⟩ := Control.closes_facts closes
        cases opened
      · exact next

theorem exists_class {above : List Scanned} (inClass : (controlAt above).inClass = true) :
    ∃ line ∈ above, line.isClass = true := by
  induction above using List.reverseRecOn with
  | nil => cases inClass
  | append_singleton above here inductionHypothesis =>
      by_cases before : (controlAt above).inClass = true
      · obtain ⟨line, inside, header⟩ := inductionHypothesis before
        exact ⟨line, List.mem_append_left _ inside, header⟩
      · rw [controlAt_snoc, controlAt_outside before, Control.after] at inClass
        refine ⟨here, by simp, ?_⟩
        rcases Control.step_cases .start here.line.first here.seen
          with ⟨header, _, _⟩ | ⟨starts, _, _⟩ | ⟨closes, _, _⟩ | ⟨_, _, _, _, next⟩
        · exact header.2
        · simp [Control.starts, Control.start] at starts
        · obtain ⟨_, _, _, indent, opened, _⟩ := Control.closes_facts closes
          cases opened
        · rw [next] at inClass
          cases inClass

/-- Lines that change nothing, one after another. -/
theorem controlAt_steady {above between : List Scanned}
    (steady : ∀ first here second, between = first ++ here :: second →
      controlAt (above ++ first) = controlAt above →
        (controlAt above).after here = controlAt above) :
    controlAt (above ++ between) = controlAt above := by
  induction between using List.reverseRecOn with
  | nil => rw [List.append_nil]
  | append_singleton between here inductionHypothesis =>
      have before : controlAt (above ++ between) = controlAt above := by
        apply inductionHypothesis
        intro first line second split
        apply steady first line (second ++ [here])
        rw [split, List.append_assoc, List.cons_append]
      rw [← List.append_assoc, controlAt_snoc, before]
      exact steady between here [] rfl before

/-- A method is only open where one was started. -/
theorem exists_start {above between : List Scanned}
    (shut : (controlAt above).current = none)
    (opened : (controlAt (above ++ between)).current ≠ none) :
    ∃ first here second, between = first ++ here :: second ∧
      startsAt (above ++ first) here = true := by
  induction between using List.reverseRecOn with
  | nil =>
      rw [List.append_nil] at opened
      exact absurd shut opened
  | append_singleton between here inductionHypothesis =>
      by_cases before : (controlAt (above ++ between)).current = none
      · refine ⟨between, here, [], rfl, ?_⟩
        rw [← List.append_assoc, controlAt_snoc, Control.after] at opened
        rcases Control.step_cases (controlAt (above ++ between)) here.line.first here.seen with
          ⟨_, _, next⟩ | ⟨starts, _, _⟩ | ⟨_, _, next⟩ | ⟨_, _, _, _, next⟩
        · rw [next] at opened
          exact absurd rfl opened
        · exact starts
        · rw [next] at opened
          exact absurd rfl opened
        · rw [next] at opened
          exact absurd before opened
      · obtain ⟨first, line, second, split, starts⟩ := inductionHypothesis before
        refine ⟨first, line, second ++ [here], ?_, starts⟩
        rw [split, List.append_assoc, List.cons_append]

end Assaybank.Interchange
