import Assaybank.Interchange.MemberLines
import Assaybank.Library.Grouping

/-!
Owns which members of a test module the splitter keeps whole: no line of a class body is in the
preamble, and what a header or a decorator is followed by goes where it goes.

Contract: on the modules it accepts, the splitter tears nothing exactly when no line that ends a
method belongs to a class or has a body, and no test method stands in a body other than a class's
(`splitTestMethods_whole`).
-/

namespace Assaybank.Interchange

open Assaybank.Runtime Assaybank.Library Assaybank.Library.Python

/-! ### The two properties -/

/-- No line of a class body is in the preamble, and a header or a decorator that stands below a
class header goes where all of its body goes. -/
structure KeepsMembersWhole (lines : List Scanned) : Prop where
  preamble : ∀ above header between here after,
    lines = above ++ header :: between ++ here :: after → header.isClass = true →
      inClassBody between here after = true →
        placeAt (above ++ header :: between) here ≠ .preamble ∧
          (here.line.physical.tail ≠ [] →
            ((controlAt (above ++ header :: between)).after here).settled ≠ .preamble)
  bodies : ∀ above header between here after,
    lines = above ++ header :: between ++ here :: after →
      (∃ line ∈ above, line.isClass = true) → header.isClass = false → header.isCode = true →
        inBody header between here after = true →
          ∃ destination, GoesTo above header destination ∧
            GoesTo (above ++ header :: between) here destination
  headers : ∀ above header after, lines = above ++ header :: after →
    (∃ line ∈ above, line.isClass = true) → header.isClass = false →
      header.line.isClause = true ∨ header.isDecorator = true →
        ∃ destination, GoesTo above header destination

/-- What the splitter relies on. -/
structure Separable (lines : List Scanned) : Prop where
  /-- A line that ends a test method is in no class. -/
  outside : ∀ above here after, lines = above ++ here :: after → closesAt above here = true →
    ∀ before header between, above = before ++ header :: between → header.isClass = true →
      inClassBody between here after = false
  /-- It has no body. -/
  bodiless : ∀ above here after, lines = above ++ here :: after → closesAt above here = true →
    here.isCode = true → ∀ between other later, after = between ++ other :: later →
      inBody here between other later = false
  /-- If it is a clause or a decorator it is one physical line. -/
  single : ∀ above here after, lines = above ++ here :: after → closesAt above here = true →
    here.line.isClause = true ∨ here.isDecorator = true → here.line.physical.tail = []
  /-- Below a class header no test method is in the body of another header, or decorated. -/
  plain : ∀ above header between here after, lines = above ++ header :: between ++ here :: after →
    (∃ line ∈ above, line.isClass = true) → header.isClass = false → header.isCode = true →
      startsAt (above ++ header :: between) here = true → inBody header between here after = false

/-- Whether a module is separable can be computed. -/
private theorem separable_iff (lines : List Scanned) :
    Separable lines ↔
      (∀ here ∈ splits lines, closesAt here.1 here.2.1 = true →
        (∀ up ∈ splits here.1, up.2.1.isClass = true →
          inClassBody up.2.2 here.2.1 here.2.2 = false) ∧
        (here.2.1.isCode = true → ∀ down ∈ splits here.2.2,
          inBody here.2.1 down.1 down.2.1 down.2.2 = false) ∧
        (here.2.1.line.isClause = true ∨ here.2.1.isDecorator = true →
          here.2.1.line.physical.tail = [])) ∧
      ∀ here ∈ splits lines, ∀ up ∈ splits here.1, (∃ line ∈ up.1, line.isClass = true) →
        up.2.1.isClass = false → up.2.1.isCode = true → startsAt here.1 here.2.1 = true →
          inBody up.2.1 up.2.2 here.2.1 here.2.2 = false := by
  simp only [Prod.forall, mem_splits]
  constructor
  · intro separable
    refine ⟨fun above here after split closes => ⟨?_, ?_, ?_⟩, ?_⟩
    · intro before header between same isClass
      exact separable.outside above here after split closes before header between same isClass
    · exact separable.bodiless above here after split closes
    · exact separable.single above here after split closes
    · intro inner here after split above header between same
      subst same
      exact separable.plain above header between here after split
  · rintro ⟨ends, plain⟩
    refine ⟨?_, ?_, ?_, ?_⟩
    · intro above here after split closes
      exact (ends above here after split closes).1
    · intro above here after split closes
      exact (ends above here after split closes).2.1
    · intro above here after split closes
      exact (ends above here after split closes).2.2
    · intro above header between here after split
      exact plain (above ++ header :: between) here after split above header between rfl

instance (lines : List Scanned) : Decidable (Separable lines) :=
  decidable_of_iff' _ (separable_iff lines)

/-! ### Lines of a module -/

private theorem trim_ne_nil_of_isCode {here : Scanned} (code : here.isCode = true) :
    trim here.line.first ≠ [] := by
  intro blank
  have empty : trimStart here.line.first = [] := by
    rw [trimStart, List.dropWhile_eq_nil_iff]
    exact List.all_eq_true.mp (trim_eq_nil.mp blank)
  rw [Scanned.isCode, empty] at code
  cases code

/-- A line of code that does not end the open method is deeper than its `def`. -/
private theorem deeper_of_not_closes {control : Control} {here : Scanned} {indent : Nat}
    (seen : here.seen = true) (plain : ¬ (here.seen = true ∧ here.isClass = true))
    (other : ¬ control.starts here.line.first here.seen = true)
    (goesOn : ¬ control.closes here.line.first here.seen = true) (code : here.isCode = true)
    (opened : control.current = some indent) : indent < here.leading := by
  by_contra shallow
  apply goesOn
  have noClass : (CLASS here.line.first).isNone = true := by
    have notClass : ¬ (CLASS here.line.first).isSome = true := fun header => plain ⟨seen, header⟩
    simpa using notClass
  have unstarted : control.starts here.line.first here.seen = false := by simpa using other
  rw [Control.closes, unstarted, seen, noClass, opened]
  simp only [Bool.true_and, Bool.not_false, Bool.and_eq_true, bne_iff_ne, Option.any_some,
    decide_eq_true_eq]
  exact ⟨trim_ne_nil_of_isCode code, Nat.le_of_not_lt shallow⟩

private theorem inClass_of_open {above : List Scanned}
    (opened : (controlAt above).current ≠ none) : (controlAt above).inClass = true := by
  by_contra outside
  rw [controlAt_outside outside] at opened
  exact opened rfl

/-- The last line of code that is not indented. -/
private theorem exists_unindented {above : List Scanned}
    (header : ∃ line ∈ above, line.isClass = true) :
    ∃ before line between, above = before ++ line :: between ∧ line.isCode = true ∧
      line.leading = 0 ∧ ∀ other ∈ between, other.isCode = true → 0 < other.leading := by
  induction above using List.reverseRecOn with
  | nil => simp at header
  | append_singleton above here inductionHypothesis =>
      by_cases unindented : here.isCode = true ∧ here.leading = 0
      · exact ⟨above, here, [], rfl, unindented.1, unindented.2, by simp⟩
      · have indented : here.isCode = true → 0 < here.leading :=
          fun code => Nat.pos_of_ne_zero fun zero => unindented ⟨code, zero⟩
        obtain ⟨line, inside, isClass⟩ := header
        have earlier : line ∈ above := by
          rcases List.mem_append.mp inside with earlier | last
          · exact earlier
          · rw [List.mem_singleton.mp last] at isClass
            obtain ⟨code, _, zero⟩ := isClass_facts isClass
            exact absurd ⟨code, zero⟩ unindented
        obtain ⟨before, last, between, split, code, zero, deep⟩ :=
          inductionHypothesis ⟨line, earlier, isClass⟩
        refine ⟨before, last, between ++ [here], ?_, code, zero, ?_⟩
        · rw [split, List.append_assoc, List.cons_append]
        · intro other inside
          rcases List.mem_append.mp inside with earlier | last
          · exact deep other earlier
          · rw [List.mem_singleton.mp last]
            exact indented

/-- The last line of code that is not indented is a class header. -/
private def EndsInClass (above : List Scanned) : Prop :=
  ∃ before header between, above = before ++ header :: between ∧ header.isClass = true ∧
    ∀ line ∈ between, line.isCode = true → 0 < line.leading

private theorem EndsInClass.snoc {above : List Scanned} (within : EndsInClass above)
    {here : Scanned} (indented : here.isCode = true → 0 < here.leading) :
    EndsInClass (above ++ [here]) := by
  obtain ⟨before, header, between, split, isClass, deep⟩ := within
  refine ⟨before, header, between ++ [here], ?_, isClass, ?_⟩
  · rw [split, List.append_assoc, List.cons_append]
  · intro line inside
    rcases List.mem_append.mp inside with earlier | last
    · exact deep line earlier
    · rw [List.mem_singleton.mp last]
      exact indented

/-- A line that is not taken for a start hides those after it. -/
private def SeenFirst (lines : List Scanned) : Prop :=
  lines.Pairwise fun here after => after.seen = true → here.seen = true

section Module

variable {lines : List Scanned}

/-- Where no test method stands in another body, each stands in a class body. -/
private theorem endsInClass_of_starts (separable : Separable lines) {above after : List Scanned}
    {here : Scanned} (split : lines = above ++ here :: after)
    (starts : startsAt above here = true) : EndsInClass above := by
  obtain ⟨_, _, code, _, indented, inClass⟩ := starts_facts starts
  obtain ⟨found, within, isClass⟩ := exists_class inClass
  obtain ⟨before, line, between, same, lineCode, zero, deep⟩ :=
    exists_unindented ⟨found, within, isClass⟩
  by_cases header : line.isClass = true
  · exact ⟨before, line, between, same, header, deep⟩
  · exfalso
    have earlier : found ∈ before := by
      rw [same] at within
      rcases List.mem_append.mp within with earlier | later
      · exact earlier
      · rcases List.mem_cons.mp later with rfl | later
        · exact absurd isClass header
        · obtain ⟨classCode, _, classZero⟩ := isClass_facts isClass
          exact absurd classZero (Nat.ne_of_gt (deep found later classCode))
    rw [same] at split starts
    have apart := separable.plain before line between here after split ⟨found, earlier, isClass⟩
      (by simpa using header) lineCode starts
    rw [inBody_of_deeper _ code] at apart
    · cases apart
    · intro other inside otherCode
      rw [zero]
      rcases List.mem_append.mp inside with earlier | last
      · exact deep other earlier otherCode
      · rw [List.mem_singleton.mp last]
        exact indented

/-- A method that is open is open within a class. -/
private theorem endsInClass_of_open (separable : Separable lines) {above after : List Scanned}
    (split : lines = above ++ after) (seen : ∀ line ∈ above, line.seen = true)
    (opened : (controlAt above).current ≠ none) : EndsInClass above := by
  induction above using List.reverseRecOn generalizing after with
  | nil => exact absurd rfl opened
  | append_singleton above here inductionHypothesis =>
      rw [List.append_assoc] at split
      rw [controlAt_snoc, Control.after] at opened
      rcases Control.step_cases (controlAt above) here.line.first here.seen with
        ⟨_, _, next⟩ | ⟨starts, _, _⟩ | ⟨_, _, next⟩ | ⟨plain, other, goesOn, _, next⟩
      · rw [next] at opened
        exact absurd rfl opened
      · apply (endsInClass_of_starts separable split starts).snoc
        exact fun _ => (starts_facts starts).2.2.2.2.1
      · rw [next] at opened
        exact absurd rfl opened
      · rw [next] at opened
        have before := inductionHypothesis split
          (fun line inside => seen line (List.mem_append_left _ inside)) opened
        obtain ⟨indent, opened⟩ := Option.ne_none_iff_exists'.mp opened
        apply before.snoc
        intro code
        exact Nat.lt_of_le_of_lt (Nat.zero_le indent)
          (deeper_of_not_closes (seen here (by simp)) plain other goesOn code opened)

private theorem seen_above (hidden : SeenFirst lines) {above after : List Scanned} {here : Scanned}
    (split : lines = above ++ here :: after) (seen : here.seen = true) :
    ∀ line ∈ above, line.seen = true := by
  rw [SeenFirst, split, List.pairwise_append] at hidden
  intro line inside
  exact hidden.2.2 line inside here List.mem_cons_self seen

private theorem unseen_below (hidden : SeenFirst lines) {above after : List Scanned}
    {here : Scanned} (split : lines = above ++ here :: after) (unseen : here.seen = false) :
    ∀ line ∈ after, line.seen = false := by
  rw [SeenFirst, split, List.pairwise_append, List.pairwise_cons] at hidden
  intro line inside
  by_contra seen
  rw [hidden.2.1.1 line inside (by simpa using seen)] at unseen
  cases unseen

/-- Where a method is started at all, the splitter sees the first class header. -/
private theorem inClass_of_class (hidden : SeenFirst lines)
    (accepted : (controlAt lines).started ≠ 0) {above after : List Scanned}
    (split : lines = above ++ after)
    (header : ∃ line ∈ above, line.isClass = true) : (controlAt above).inClass = true := by
  by_contra outside
  obtain ⟨line, inside, isClass⟩ := header
  obtain ⟨before, between, same⟩ := List.append_of_mem inside
  have unseen : line.seen = false := by
    by_contra seen
    apply outside
    rw [same, List.append_cons]
    apply inClass_append
    rw [controlAt_snoc, Control.after]
    rcases Control.step_cases (controlAt before) line.line.first line.seen with
      ⟨_, _, next⟩ | ⟨starts, _, _⟩ | ⟨closes, _, _⟩ | ⟨plain, _⟩
    · rw [next]
    · rw [(starts_facts starts).2.1] at isClass
      cases isClass
    · rw [Scanned.isClass, (Control.closes_facts closes).2.1] at isClass
      cases isClass
    · exact absurd ⟨by simpa using seen, isClass⟩ plain
  have whole : lines = before ++ line :: (between ++ after) := by
    rw [split, same, List.append_assoc, List.cons_append]
  have start : controlAt (above ++ after) = controlAt above := by
    apply controlAt_steady
    intro first here second kept _
    rw [Control.after, unseen_below hidden whole unseen here (by simp [kept]),
      Control.step_unseen.2]
  rw [split, start, controlAt_outside outside] at accepted
  exact accepted rfl

/-- Lines of a body that start no test method go where the control has it. -/
private theorem steady_of_body (hidden : SeenFirst lines) (separable : Separable lines)
    {above after : List Scanned} {here : Scanned} (split : lines = above ++ here :: after)
    (inClass : (controlAt above).inClass = true) (plain : ¬ startsAt above here = true)
    (deep : ∀ indent, (controlAt above).current = some indent → here.seen = true →
      ∃ code, nextCode (here :: after) = some code ∧ indent < code.leading) :
    placeAt above here = (controlAt above).settled ∧
      (controlAt above).after here = controlAt above := by
  rw [placeAt, Control.after]
  rcases Control.step_cases (controlAt above) here.line.first here.seen with
    ⟨header, place, next⟩ | ⟨starts, _, _⟩ | ⟨closes, _, _⟩ | ⟨_, _, _, place, next⟩
  · rw [place, next]
    cases opened : (controlAt above).current with
    | none =>
        constructor
        · rw [Control.settled, opened, if_neg (by simp), if_pos inClass]
        · rw [Control.started, opened]
          have same : controlAt above = ⟨true, none, (controlAt above).closed⟩ := by
            rw [← inClass, ← opened]
          exact same.symm
    | some indent =>
        exfalso
        obtain ⟨isCode, _, zero⟩ := isClass_facts header.2
        obtain ⟨code, found, deeper⟩ := deep indent opened header.1
        rw [nextCode_cons, if_pos isCode, Option.some.injEq] at found
        rw [← found, zero] at deeper
        exact Nat.not_lt_zero _ deeper
  · exact absurd starts plain
  · exfalso
    obtain ⟨seen, _, _, indent, opened, shallow⟩ := Control.closes_facts closes
    obtain ⟨code, found, deeper⟩ := deep indent opened seen
    rw [nextCode_cons] at found
    cases isCode : here.isCode with
    | true =>
        rw [if_pos isCode, Option.some.injEq] at found
        rw [← found] at deeper
        exact absurd shallow (Nat.not_le_of_lt deeper)
    | false =>
        rw [if_neg (by simp [isCode])] at found
        have opened : (controlAt above).current ≠ none := by simp [opened]
        obtain ⟨before, header, between, same, isClass, indented⟩ :=
          endsInClass_of_open separable split (seen_above hidden split seen) opened
        have apart := separable.outside above here after split closes before header between same
          isClass
        have inside : inClassBody between here after = true := by
          rw [inClassBody, isCode, found, Option.any_some, Bool.not_false, Bool.true_and,
            decide_eq_true (Nat.lt_of_le_of_lt (Nat.zero_le indent) deeper), Bool.or_true,
            Bool.and_true, List.all_eq_true]
          intro line within
          cases lineCode : line.isCode with
          | false => rfl
          | true => simpa using indented line within lineCode
        rw [inside] at apart
        cases apart
  · exact ⟨place, next⟩

/-- A header and its body go to one place. -/
private theorem goesTo_body (hidden : SeenFirst lines) (separable : Separable lines)
    {above between after : List Scanned} {header here : Scanned}
    (split : lines = above ++ header :: between ++ here :: after)
    (inClass : (controlAt above).inClass = true) (classAbove : ∃ line ∈ above, line.isClass = true)
    (plain : header.isClass = false) (code : header.isCode = true)
    (inside : inBody header between here after = true) :
    GoesTo above header ((controlAt above).after header).settled ∧
      GoesTo (above ++ header :: between) here ((controlAt above).after header).settled := by
  have first : lines = above ++ header :: (between ++ here :: after) := by
    rw [split, List.append_assoc, List.cons_append]
  have place : placeAt above header = ((controlAt above).after header).settled ∧
      ∀ indent, ((controlAt above).after header).current = some indent → header.seen = true →
        indent < header.leading ∨ indent = header.leading ∧ header.isDecorator = false := by
    rw [placeAt, Control.after]
    rcases Control.step_cases (controlAt above) header.line.first header.seen with
      ⟨isClass, _, _⟩ | ⟨starts, place, next⟩ | ⟨closes, _, _⟩ |
        ⟨other, unstarted, goesOn, place, next⟩
    · rw [Scanned.isClass, isClass.2] at plain
      cases plain
    · rw [place, next]
      refine ⟨by simp [Control.settled], fun indent opened _ => .inr ⟨?_, ?_⟩⟩
      · exact (Option.some.inj opened).symm
      · exact (starts_facts starts).2.2.2.1
    · rw [separable.bodiless above header _ first closes code between here after rfl] at inside
      cases inside
    · rw [place, next]
      refine ⟨rfl, fun indent opened seen => .inl ?_⟩
      exact deeper_of_not_closes seen other unstarted goesOn code opened
  -- no line from the header on to the last of its body changes the control
  have steady (first : List Scanned) (line : Scanned) (second : List Scanned)
      (within : inBody header first line second = true)
      (same : lines = above ++ header :: first ++ line :: second)
      (before : controlAt (above ++ header :: first) = (controlAt above).after header) :
      placeAt (above ++ header :: first) line = ((controlAt above).after header).settled ∧
        (controlAt (above ++ header :: first)).after line = (controlAt above).after header := by
    rw [← before]
    apply steady_of_body hidden separable same
    · rw [before]
      exact Control.inClass_next inClass
    · intro starts
      rw [separable.plain above header first line second same classAbove plain code starts]
        at within
      cases within
    · intro indent opened seen
      rw [before] at opened
      obtain ⟨found, next, depth, deeper⟩ := inBody_depth within
      refine ⟨found, next, ?_⟩
      have headerSeen : header.seen = true := seen_above hidden same seen header (by simp)
      rcases place.2 indent opened headerSeen with below | ⟨equal, undecorated⟩
      · exact Nat.lt_of_lt_of_le below depth
      · rw [equal]
        exact deeper undecorated
  have last : controlAt (above ++ header :: between) = (controlAt above).after header := by
    rw [List.append_cons, ← controlAt_snoc]
    apply controlAt_steady
    intro before line second kept same
    rw [controlAt_snoc, ← List.append_cons] at same
    rw [controlAt_snoc, ← same]
    rw [kept, List.append_assoc, List.cons_append] at split
    rw [kept] at inside
    refine ((steady before line (second ++ here :: after) (inBody_within inside) ?_ same).2).trans
      same.symm
    rw [split]
    simp
  have body := steady between here after inside split last
  refine ⟨⟨place.1, fun _ => rfl⟩, body.1, fun _ => ?_⟩
  rw [body.2]

/-- What is separable is kept whole. -/
private theorem keepsMembersWhole_of_separable (hidden : SeenFirst lines)
    (accepted : (controlAt lines).started ≠ 0) (separable : Separable lines) :
    KeepsMembersWhole lines where
  preamble := by
    intro above header between here after split isClass inside
    have inClass := inClass_of_class hidden accepted split ⟨header, by simp, isClass⟩
    refine ⟨fun same => ?_, fun _ => Control.settled_inClass (Control.inClass_next inClass)⟩
    have closes := (Control.place_eq_preamble inClass).mp same
    rw [separable.outside _ here after split closes above header between rfl isClass] at inside
    cases inside
  bodies := by
    intro above header between here after split classAbove plain code inside
    have first : lines = above ++ (header :: between ++ here :: after) := by
      rw [split, List.append_assoc]
    have inClass := inClass_of_class hidden accepted first classAbove
    exact ⟨_, goesTo_body hidden separable split inClass classAbove plain code inside⟩
  headers := by
    intro above header after split classAbove plain clause
    rcases Control.step_cases (controlAt above) header.line.first header.seen with
      ⟨isClass, _, _⟩ | ⟨_, place, next⟩ | ⟨closes, place, _⟩ | ⟨_, _, _, place, next⟩
    · rw [Scanned.isClass, isClass.2] at plain
      cases plain
    · refine ⟨_, place, fun _ => ?_⟩
      rw [Control.after, next]
      simp [Control.settled]
    · exact ⟨_, place, fun tail =>
        absurd (separable.single above header after split closes clause) tail⟩
    · refine ⟨_, place, fun _ => ?_⟩
      rw [Control.after, next]

private theorem closesAt_facts {above : List Scanned} {here : Scanned}
    (closes : closesAt above here = true) :
    here.isClass = false ∧ (controlAt above).inClass = true ∧ placeAt above here = .preamble ∧
      ((controlAt above).after here).inClass = true ∧
        ((controlAt above).after here).current = none := by
  obtain ⟨_, plain, _, indent, opened, _⟩ := Control.closes_facts closes
  have inClass : (controlAt above).inClass = true := inClass_of_open (by simp [opened])
  refine ⟨plain, inClass, (Control.place_eq_preamble inClass).mpr closes,
    Control.inClass_next inClass, ?_⟩
  rw [Control.after]
  rcases Control.step_cases (controlAt above) here.line.first here.seen with
    ⟨_, _, next⟩ | ⟨starts, _, _⟩ | ⟨_, _, next⟩ | ⟨_, _, goesOn, _, _⟩
  · rw [next]
  · simp [closesAt, Control.closes, starts] at closes
  · rw [next]
  · exact absurd closes goesOn

/-- A line that ends a method has no body that goes into the preamble with it. -/
private theorem bodiless_of_keepsMembersWhole (whole : KeepsMembersWhole lines)
    {above between after : List Scanned} {here other : Scanned}
    (split : lines = above ++ here :: between ++ other :: after)
    (closes : closesAt above here = true) (code : here.isCode = true) :
    inBody here between other after = false := by
  by_contra inside
  rw [Bool.not_eq_false] at inside
  obtain ⟨plain, inClass, preamble, nextInClass, shut⟩ := closesAt_facts closes
  have classAbove := exists_class inClass
  have together (first second : List Scanned) (line : Scanned)
      (same : lines = above ++ here :: first ++ line :: second)
      (within : inBody here first line second = true) :
      placeAt (above ++ here :: first) line = .preamble := by
    obtain ⟨destination, header, body⟩ :=
      whole.bodies above here first line second same classAbove plain code within
    rw [body.1, ← header.1, preamble]
  rw [← controlAt_snoc] at nextInClass shut
  have lastInClass : (controlAt (above ++ here :: between)).inClass = true := by
    rw [List.append_cons]
    exact inClass_append nextInClass between
  have ends : closesAt (above ++ here :: between) other = true :=
    (Control.place_eq_preamble lastInClass).mp (together between after other split inside)
  obtain ⟨_, _, _, indent, opened, _⟩ := Control.closes_facts ends
  have reopened : (controlAt (above ++ [here] ++ between)).current ≠ none := by
    rw [← List.append_cons, opened]
    exact Option.some_ne_none indent
  -- a method that starts in the body goes elsewhere
  obtain ⟨first, line, second, kept, starts⟩ := exists_start shut reopened
  rw [kept] at split inside
  rw [← List.append_cons] at starts
  have started := together first (second ++ other :: after) line (by rw [split]; simp)
    (inBody_within inside)
  rw [placeAt, Control.place_starts starts] at started
  cases started

/-- A test method goes elsewhere than a header above it. -/
private theorem plain_of_keepsMembersWhole (whole : KeepsMembersWhole lines)
    {above between after : List Scanned} {header here : Scanned}
    (split : lines = above ++ header :: between ++ here :: after)
    (classAbove : ∃ line ∈ above, line.isClass = true) (plain : header.isClass = false)
    (code : header.isCode = true) (starts : startsAt (above ++ header :: between) here = true) :
    inBody header between here after = false := by
  by_contra inside
  rw [Bool.not_eq_false] at inside
  obtain ⟨destination, first, second⟩ :=
    whole.bodies above header between here after split classAbove plain code inside
  have same : placeAt above header = .method (controlAt (above ++ header :: between)).started := by
    rw [first.1, ← second.1]
    exact Control.place_starts starts
  have below := Control.position_lt same
  have later := started_append (above ++ [header]) between
  rw [controlAt_snoc, ← List.append_cons] at later
  exact absurd (Nat.lt_of_lt_of_le below later) (Nat.lt_irrefl _)

/-- What is kept whole is separable. -/
private theorem separable_of_keepsMembersWhole (hidden : SeenFirst lines)
    (accepted : (controlAt lines).started ≠ 0) (whole : KeepsMembersWhole lines) :
    Separable lines where
  outside := by
    intro above here after split closes before header between same isClass
    by_contra inside
    rw [Bool.not_eq_false] at inside
    have inClass := inClass_of_class hidden accepted split ⟨header, by simp [same], isClass⟩
    have preamble := (Control.place_eq_preamble inClass).mpr closes
    rw [same] at split preamble
    exact (whole.preamble before header between here after split isClass inside).1 preamble
  bodiless := by
    intro above here after split closes code between other later kept
    apply bodiless_of_keepsMembersWhole whole _ closes code
    rw [split, kept, List.append_assoc, List.cons_append]
  single := by
    intro above here after split closes clause
    obtain ⟨plain, inClass, preamble, nextInClass, _⟩ := closesAt_facts closes
    obtain ⟨destination, place, tail⟩ :=
      whole.headers above here after split (exists_class inClass) plain clause
    by_contra more
    apply Control.settled_inClass nextInClass
    rw [tail more, ← place, preamble]
  plain := by
    intro above header between here after split classAbove plain code starts
    exact plain_of_keepsMembersWhole whole split classAbove plain code starts

end Module

/-- On a module that is accepted the preamble and the methods are the lines by where they go, and
no member of a class is torn exactly when the module is separable. -/
theorem splitTestMethods_whole {source : JsString} {lines : List LogicalLine}
    (whole : linesOf source = physicalLines lines)
    (accepted : (splitTestMethods source).methods ≠ []) :
    (splitTestMethods source).preamble =
        linesCode (linesTo .preamble (destinationsOf .start (scanned lines))) ∧
      (splitTestMethods source).methods.map TestMethod.code =
        ((List.range (splitTestMethods source).methods.length).map fun position =>
          linesCode (linesTo (.method position) (destinationsOf .start (scanned lines)))) ∧
      (KeepsMembersWhole (scanned lines) ↔ Separable (scanned lines)) := by
  have started : (controlAt (scanned lines)).started ≠ 0 := by
    rw [← length_scanned whole]
    exact fun none => accepted (List.length_eq_zero_iff.mp none)
  have hidden : SeenFirst (scanned lines) := seen_of_scannedFrom
  have taken := splitTestMethods_destinations source
  rw [destinations_scanned whole] at taken
  exact ⟨taken.1, taken.2, separable_of_keepsMembersWhole hidden started,
    keepsMembersWhole_of_separable hidden started⟩

private theorem blank_completes : completes .nothing [[]] = true := by decide

private def blank : LogicalLine := ⟨[[]], blank_completes⟩

/-- A module of a `setUp` above two test methods, and a call below its class. -/
private def twoFer : List LogicalLine :=
  [⟨[js "class TwoFerTest(TestCase):"], by decide +kernel⟩,
    ⟨[js "    def setUp(self):"], by decide +kernel⟩,
    ⟨[js "        self.name = None"], by decide +kernel⟩, blank,
    ⟨[js "    def test_none(self):"], by decide +kernel⟩,
    ⟨[js "        self.assertTrue(two_fer())"], by decide +kernel⟩, blank,
    ⟨[js "    def test_bob(self):"], by decide +kernel⟩,
    ⟨[js "        self.assertTrue(", js "            two_fer(1))"], by decide +kernel⟩,
    ⟨[js "unittest.main()"], by decide +kernel⟩]

theorem splitTestMethods_whole_example : KeepsMembersWhole (scanned twoFer) :=
  (@splitTestMethods_whole (joinWith (js "\n") (physicalLines twoFer)) twoFer (by decide +kernel)
    (by decide +kernel)).2.2.mpr (by decide +kernel)

/-- A module whose class has a `setUp` below its test method. -/
private def setUpBelow : List LogicalLine :=
  [⟨[js "import bob"], by decide +kernel⟩,
    ⟨[js "class BobTest(TestCase):"], by decide +kernel⟩,
    ⟨[js "    def test_hey(self):"], by decide +kernel⟩,
    ⟨[js "        self.assertTrue(self.bob)"], by decide +kernel⟩, blank,
    ⟨[js "    def setUp(self):"], by decide +kernel⟩,
    ⟨[js "        self.bob = bob.hey()"], by decide +kernel⟩]

/-- Its header is put into the preamble, and its body is dropped. -/
theorem setUp_torn :
    splitTestMethods (joinWith (js "\n") (physicalLines setUpBelow)) =
        ⟨js "import bob\n    def setUp(self):", some (js "BobTest"),
          [⟨js "test_hey", js "    def test_hey(self):\n        self.assertTrue(self.bob)", 3⟩]⟩ ∧
      linesOf (joinWith (js "\n") (physicalLines setUpBelow)) = physicalLines setUpBelow ∧
        ¬ KeepsMembersWhole (scanned setUpBelow) := by
  refine ⟨by decide +kernel, by decide +kernel, ?_⟩
  intro whole
  have apart := whole.preamble ((scanned setUpBelow).take 1)
    ((scanned setUpBelow).get ⟨1, by decide⟩) (((scanned setUpBelow).drop 2).take 3)
    ((scanned setUpBelow).get ⟨5, by decide⟩) ((scanned setUpBelow).drop 6) rfl
    (by decide +kernel) (by decide +kernel)
  exact absurd apart.1 (by decide +kernel)

end Assaybank.Interchange
