import Assaybank.Markdown.Block
import Mathlib.Algebra.Order.BigOperators.Group.List
import Mathlib.Algebra.Order.Group.Nat
import Mathlib.Algebra.GroupWithZero.Nat
import Mathlib.Tactic.SplitIfs

/-!
Owns the termination of the block parser: the states of its loop from which it does not
advance, and the sources on which it therefore ends.

`Refused` is the whole defect. It names the lines the paragraph rule will not start with
and no earlier rule takes: `1.` followed by blanks and a line that `.` cannot match, and a
table header whose delimiter row has another number of columns.
-/

namespace Assaybank.Markdown

open Assaybank.Runtime

/-- A line that no rule of the loop takes, where `next` is the line after it. -/
structure Refused (line next : JsString) : Prop where
  notBlank : BLANK line = false
  notFence : FENCE line = none
  notRule : RULE line = false
  notHeading : HEADING line = none
  notQuote : QUOTE line = none
  notBullet : BULLET line = none
  notOrdered : ORDERED line = none
  notTable : startsTable line next = false
  /-- The paragraph rule's own tests. -/
  interrupts : (interruptsOrdered line || looksLikeTable line next) = true

instance (line next : JsString) : Decidable (Refused line next) :=
  decidable_of_iff
    (BLANK line = false ∧ FENCE line = none ∧ RULE line = false ∧ HEADING line = none ∧
      QUOTE line = none ∧ (BULLET line).isNone ∧ (ORDERED line).isNone ∧
      startsTable line next = false ∧
      (interruptsOrdered line || looksLikeTable line next) = true)
    ⟨fun ⟨blank, fence, rule, heading, quote, bullet, ordered, table, interrupts⟩ =>
        ⟨blank, fence, rule, heading, quote, Option.isNone_iff_eq_none.mp bullet,
          Option.isNone_iff_eq_none.mp ordered, table, interrupts⟩,
      fun ⟨blank, fence, rule, heading, quote, bullet, ordered, table, interrupts⟩ =>
        ⟨blank, fence, rule, heading, quote, Option.isNone_iff_eq_none.mpr bullet,
          Option.isNone_iff_eq_none.mpr ordered, table, interrupts⟩⟩

/-- A state of the loop whose line is refused. -/
def Stalls (lines : List JsString) (i : Nat) : Prop :=
  Refused (lines[i]?.getD []) (lines[i + 1]?.getD [])

instance (lines : List JsString) (i : Nat) : Decidable (Stalls lines i) :=
  inferInstanceAs (Decidable (Refused _ _))

/-! ### One iteration takes a line, or its line is refused -/

private theorem takeQuote_pos {line : JsString} (rest : List JsString)
    (quoted : (QUOTE line).isSome) : 0 < (takeQuote (line :: rest)).2 := by
  obtain ⟨text, found⟩ := Option.isSome_iff_exists.mp quoted
  simp only [takeQuote, found]
  omega

private theorem takeItems_pos (ordered : Bool) {line : JsString} (rest : List JsString)
    {marker : ListMarker} (found : listMarker ordered line = some marker)
    (notRule : RULE line = false) : 0 < (takeItems ordered (line :: rest) ⟨[], [], 0⟩).2 := by
  have sibling : siblingMarker ordered ⟨[], [], 0⟩ line = some marker := by
    simp [siblingMarker, found, notRule]
  simp only [takeItems, sibling]
  omega

private theorem takeParagraph_taken (line : JsString) (rest : List JsString) :
    0 < (takeParagraph (line :: rest)).2 ↔
      (BLANK line || interruptsParagraph line || looksLikeTable line (rest.head?.getD [])) = false := by
  cases stops : BLANK line || interruptsParagraph line || looksLikeTable line (rest.head?.getD []) with
  | true => simp only [takeParagraph, stops, if_true, Nat.lt_irrefl, Bool.true_eq_false]
  | false => simp only [takeParagraph, stops, Bool.false_eq_true, if_false, Nat.succ_pos]

private theorem takeParagraph_stops {line : JsString} {rest : List JsString}
    (stops : ¬ 0 < (takeParagraph (line :: rest)).2) :
    (BLANK line || interruptsParagraph line || looksLikeTable line (rest.head?.getD [])) = true := by
  rw [takeParagraph_taken, Bool.not_eq_false] at stops
  exact stops

/-- The iteration takes a line exactly when some rule of the loop accepts it. -/
theorem blockOf_taken (unicode : Unicode) (line : JsString) (rest : List JsString) :
    0 < (blockOf unicode line rest).2 ↔ ¬ Refused line (rest.head?.getD []) := by
  unfold blockOf
  cases blank : BLANK line with
  | true => simpa using fun refused : Refused line _ => by simp [refused.notBlank] at blank
  | false =>
  cases fence : FENCE line with
  | some found => simpa using fun refused : Refused line _ => by simp [refused.notFence] at fence
  | none =>
  cases rule : RULE line with
  | true => simpa using fun refused : Refused line _ => by simp [refused.notRule] at rule
  | false =>
  cases heading : HEADING line with
  | some found =>
      simpa using fun refused : Refused line _ => by simp [refused.notHeading] at heading
  | none =>
  cases quote : QUOTE line with
  | some found =>
      have taken := takeQuote_pos rest (Option.isSome_iff_exists.mpr ⟨found, quote⟩)
      simpa [taken] using fun refused : Refused line _ => by simp [refused.notQuote] at quote
  | none =>
  cases bullet : BULLET line with
  | some marker =>
      have accepted : ¬ Refused line (rest.head?.getD []) := fun refused => by
        simp [refused.notBullet] at bullet
      cases ordered : ORDERED line with
      | some other =>
          simpa [accepted] using takeItems_pos true rest ordered rule
      | none =>
          simpa [accepted] using takeItems_pos false rest bullet rule
  | none =>
  cases ordered : ORDERED line with
  | some marker =>
      have accepted : ¬ Refused line (rest.head?.getD []) := fun refused => by
        simp [refused.notOrdered] at ordered
      simpa [accepted] using takeItems_pos true rest ordered rule
  | none =>
  cases table : startsTable line (rest.head?.getD []) with
  | true =>
      have accepted : ¬ Refused line (rest.head?.getD []) := fun refused => by
        simp [refused.notTable] at table
      simp [accepted]
  | false =>
      simp only [Bool.false_eq_true, if_false, Option.isSome_none]
      constructor
      · intro taken refused
        rw [takeParagraph_taken] at taken
        have interrupts := refused.interrupts
        simp only [interruptsParagraph, Bool.or_eq_false_iff] at taken
        simp [taken.1.2.2, taken.2] at interrupts
      · intro accepted
        by_contra stops
        refine accepted ⟨blank, fence, rule, heading, quote, bullet, ordered, table, ?_⟩
        simpa [blank, interruptsParagraph, fence, heading, rule, quote, bullet] using
          takeParagraph_stops stops

private theorem drop_eq_cons {lines : List JsString} {i : Nat} (inside : i < lines.length) :
    lines.drop i = (lines[i]?.getD []) :: lines.drop (i + 1) := by
  rw [List.drop_eq_getElem_cons inside, List.getElem?_eq_getElem inside]
  rfl

private theorem head?_drop (lines : List JsString) (i : Nat) :
    (lines.drop i).head?.getD [] = lines[i]?.getD [] := by
  rw [List.head?_drop]

private theorem blockAt_eq (unicode : Unicode) {lines : List JsString} {i : Nat}
    (inside : i < lines.length) :
    blockAt unicode lines i =
      ((blockOf unicode (lines[i]?.getD []) (lines.drop (i + 1))).1,
        i + (blockOf unicode (lines[i]?.getD []) (lines.drop (i + 1))).2) := by
  unfold blockAt
  rw [drop_eq_cons inside]

private theorem blockAt_ge (unicode : Unicode) {lines : List JsString} {i : Nat}
    (inside : i < lines.length) : i ≤ (blockAt unicode lines i).2 := by
  rw [blockAt_eq unicode inside]
  exact Nat.le_add_right i _

/-- The step lemma of the loop: from a line of the source the index grows unless the state stalls. -/
theorem blockAt_advances (unicode : Unicode) {lines : List JsString} {i : Nat}
    (inside : i < lines.length) : i < (blockAt unicode lines i).2 ↔ ¬ Stalls lines i := by
  have taken := blockOf_taken unicode (lines[i]?.getD []) (lines.drop (i + 1))
  rw [head?_drop] at taken
  rw [blockAt_eq unicode inside]
  unfold Stalls
  rw [← taken]
  simp only
  omega

/-! ### Nested lines are smaller -/

/-- The size of a sequence of lines, each counted with its line feed. -/
def weight (lines : List JsString) : Nat := (lines.map fun line => line.length + 1).sum

@[simp] theorem weight_nil : weight [] = 0 := rfl

@[simp] theorem weight_cons (line : JsString) (rest : List JsString) :
    weight (line :: rest) = line.length + 1 + weight rest := by
  simp [weight]

@[simp] theorem weight_append (left right : List JsString) :
    weight (left ++ right) = weight left + weight right := by
  simp [weight]

theorem weight_drop_le (lines : List JsString) (i : Nat) : weight (lines.drop i) ≤ weight lines := by
  have split := weight_append (lines.take i) (lines.drop i)
  rw [List.take_append_drop] at split
  omega

/-- The size of the items of a list. -/
def itemsWeight (items : List (List JsString)) : Nat := (items.map weight).sum

@[simp] theorem itemsWeight_append (left right : List (List JsString)) :
    itemsWeight (left ++ right) = itemsWeight left + itemsWeight right := by
  simp [itemsWeight]

@[simp] theorem itemsWeight_singleton (item : List JsString) :
    itemsWeight [item] = weight item := by
  simp [itemsWeight]

private theorem weight_le_itemsWeight {items : List (List JsString)} {item : List JsString}
    (member : item ∈ items) : weight item ≤ itemsWeight items :=
  List.single_le_sum (by simp) _ (List.mem_map_of_mem member)

private theorem takeQuote_weight (rest : List JsString) :
    weight (takeQuote rest).1 ≤ weight rest := by
  induction rest with
  | nil => simp [takeQuote]
  | cons current rest inductionHypothesis =>
      cases quoted : QUOTE current with
      | some text =>
          have := length_QUOTE quoted
          simp only [takeQuote, quoted, weight_cons]
          omega
      | none =>
          simp only [takeQuote, quoted]
          split
          · simp only [weight_cons]
            omega
          · simp

private theorem flush_weight (state : ListState) :
    itemsWeight state.flush = itemsWeight state.items + weight state.itemLines := by
  unfold ListState.flush
  split
  · rename_i empty
    simp [empty]
  · simp

private theorem listMarker_length {ordered : Bool} {line : JsString} {marker : ListMarker}
    (found : listMarker ordered line = some marker) : marker.content.length < line.length := by
  cases ordered with
  | true => exact length_ORDERED found
  | false => exact length_BULLET found

private theorem siblingMarker_length {ordered : Bool} {state : ListState} {line : JsString}
    {marker : ListMarker} (found : siblingMarker ordered state line = some marker) :
    marker.content.length < line.length := by
  unfold siblingMarker at found
  split at found
  · cases found
  rename_i other marked
  split at found
  · cases found
    exact listMarker_length marked
  · cases found

private theorem openItem_weight {state : ListState} {marker : ListMarker} :
    itemsWeight (state.openItem marker).items + weight (state.openItem marker).itemLines =
      itemsWeight state.items + weight state.itemLines + (marker.content.length + 1) := by
  simp [ListState.openItem, flush_weight]

private theorem push_weight (state : ListState) (line : JsString) :
    itemsWeight (state.push line).items + weight (state.push line).itemLines =
      itemsWeight state.items + weight state.itemLines + (line.length + 1) := by
  simp [ListState.push]
  omega

private theorem takeItems_weight (ordered : Bool) (rest : List JsString) (state : ListState) :
    itemsWeight (takeItems ordered rest state).1 ≤
      itemsWeight state.items + weight state.itemLines + weight rest := by
  induction rest generalizing state with
  | nil => simp [takeItems, flush_weight]
  | cons current rest inductionHypothesis =>
      have pushed := fun line => inductionHypothesis (state.push line)
      simp only [push_weight] at pushed
      simp only [takeItems, weight_cons]
      cases sibling : siblingMarker ordered state current with
      | some marker =>
          have shorter := siblingMarker_length sibling
          have opened := inductionHypothesis (state.openItem marker)
          rw [openItem_weight] at opened
          simp only
          omega
      | none =>
          have flushed := flush_weight state
          have blank := pushed []
          have indented := pushed (current.drop state.contentIndent)
          have plain := pushed current
          simp only [List.length_nil, List.length_drop] at blank indented
          split_ifs <;> simp only <;> omega

private theorem takeItems_smaller (ordered : Bool) {line : JsString} {rest : List JsString}
    {marker : ListMarker} (found : listMarker ordered line = some marker)
    (notRule : RULE line = false) :
    itemsWeight (takeItems ordered (line :: rest) ⟨[], [], 0⟩).1 < weight (line :: rest) := by
  have sibling : siblingMarker ordered ⟨[], [], 0⟩ line = some marker := by
    simp [siblingMarker, found, notRule]
  have shorter := listMarker_length found
  have opened := takeItems_weight ordered rest (ListState.openItem ⟨[], [], 0⟩ marker)
  rw [openItem_weight] at opened
  simp only [itemsWeight, List.map_nil, List.sum_nil, weight_nil] at opened
  simp only [takeItems, sibling, weight_cons, itemsWeight]
  omega

private theorem takeQuote_smaller {line : JsString} {rest : List JsString}
    (quoted : (QUOTE line).isSome) : weight (takeQuote (line :: rest)).1 < weight (line :: rest) := by
  obtain ⟨text, found⟩ := Option.isSome_iff_exists.mp quoted
  have := length_QUOTE found
  have := takeQuote_weight rest
  simp only [takeQuote, found, weight_cons]
  omega

/-- The lines nested blocks are parsed from are smaller than the lines they come from. -/
theorem blockOf_bodies (unicode : Unicode) {line : JsString} {rest body : List JsString}
    (member : body ∈ (blockOf unicode line rest).1.bodies) : weight body < weight (line :: rest) := by
  unfold blockOf at member
  split at member
  · simp [BlockStep.bodies] at member
  split at member
  · simp [BlockStep.bodies] at member
  split at member
  · simp [BlockStep.bodies] at member
  rename_i notRule
  have rule : RULE line = false := by simpa using notRule
  split at member
  · simp [BlockStep.bodies] at member
  split at member
  · rename_i quoted
    simp only [BlockStep.bodies, List.mem_singleton] at member
    rw [member]
    exact takeQuote_smaller quoted
  split at member
  · split at member <;> simp [BlockStep.bodies] at member
  rename_i noMarker
  simp only [BlockStep.bodies] at member
  have bound := weight_le_itemsWeight member
  cases ordered : ORDERED line with
  | some marker =>
      rw [ordered] at bound
      exact lt_of_le_of_lt bound (takeItems_smaller true ordered rule)
  | none =>
      cases bullet : BULLET line with
      | some marker =>
          rw [ordered] at bound
          exact lt_of_le_of_lt bound (takeItems_smaller false bullet rule)
      | none => exact absurd ordered (noMarker bullet)

theorem blockAt_bodies (unicode : Unicode) {lines body : List JsString} {i : Nat}
    (inside : i < lines.length) (member : body ∈ (blockAt unicode lines i).1.bodies) :
    weight body < weight lines := by
  rw [blockAt_eq unicode inside] at member
  have smaller := blockOf_bodies unicode member
  rw [← drop_eq_cons inside] at smaller
  exact lt_of_lt_of_le smaller (weight_drop_le lines i)

/-! ### Fuel -/

private theorem parseBodies_mono
    {parse : List JsString → List RejectedUrl → Option (List Block × List RejectedUrl)}
    (longer : List JsString → List RejectedUrl → Option (List Block × List RejectedUrl))
    (extends' : ∀ body rejected result, parse body rejected = some result →
      longer body rejected = some result)
    {bodies : List (List JsString)} {rejected : List RejectedUrl}
    {result : List (List Block) × List RejectedUrl}
    (parsed : parseBodies parse bodies rejected = some result) :
    parseBodies longer bodies rejected = some result := by
  induction bodies generalizing rejected result with
  | nil => exact parsed
  | cons body rest inductionHypothesis =>
      simp only [parseBodies] at parsed ⊢
      split at parsed
      · cases parsed
      rename_i blocks refused first
      rw [extends' _ _ _ first]
      split at parsed
      · cases parsed
      rename_i others last second
      simp only [inductionHypothesis second]
      exact parsed

/-- A result does not depend on how much fuel was left. -/
theorem parseBlocksFrom_mono {unicode : Unicode} {fuel more : Nat} {lines : List JsString} {i : Nat}
    {blocks : List Block} {rejected : List RejectedUrl} {result : List Block × List RejectedUrl}
    (parsed : parseBlocksFrom unicode fuel lines i blocks rejected = some result)
    (enough : fuel ≤ more) : parseBlocksFrom unicode more lines i blocks rejected = some result := by
  induction fuel generalizing more lines i blocks rejected result with
  | zero => cases parsed
  | succ fuel inductionHypothesis =>
      obtain ⟨more, rfl⟩ : ∃ left, more = left + 1 := ⟨more - 1, by omega⟩
      simp only [parseBlocksFrom] at parsed ⊢
      split at parsed
      · rename_i inside
        rw [if_pos inside]
        split at parsed
        · cases parsed
        rename_i children refused bodies
        have same := parseBodies_mono
          (fun body => parseBlocksFrom unicode more body 0 [])
          (fun _ _ _ found => inductionHypothesis found (by omega)) bodies
        simp only [same]
        exact inductionHypothesis parsed (by omega)
      · rename_i outside
        rw [if_neg outside]
        exact parsed

/-! ### Runs -/

/-- The states a run of the loop visits from line `i` of `lines`: its own, and those of the
blocks nested in what it finds. -/
inductive Visits (unicode : Unicode) : List JsString → Nat → List JsString → Nat → Prop where
  | here {lines : List JsString} {i : Nat} (inside : i < lines.length) :
      Visits unicode lines i lines i
  | next {lines other : List JsString} {i j : Nat} (inside : i < lines.length)
      (later : Visits unicode lines (blockAt unicode lines i).2 other j) :
      Visits unicode lines i other j
  | nested {lines body other : List JsString} {i j : Nat} (inside : i < lines.length)
      (member : body ∈ (blockAt unicode lines i).1.bodies)
      (below : Visits unicode body 0 other j) : Visits unicode lines i other j

/-- A state of the loop that parsing a source reaches, at any depth. -/
def Reached (unicode : Unicode) (source : JsString) (other : List JsString) (j : Nat) : Prop :=
  Visits unicode (lines source) 0 other j

private theorem parseBodies_each
    {parse : List JsString → List RejectedUrl → Option (List Block × List RejectedUrl)}
    {bodies : List (List JsString)} {rejected : List RejectedUrl}
    {result : List (List Block) × List RejectedUrl}
    (parsed : parseBodies parse bodies rejected = some result) {body : List JsString}
    (member : body ∈ bodies) : ∃ before blocks, parse body before = some blocks := by
  induction bodies generalizing rejected result with
  | nil => cases member
  | cons first rest inductionHypothesis =>
      simp only [parseBodies] at parsed
      split at parsed
      · cases parsed
      rename_i blocks refused found
      split at parsed
      · cases parsed
      rename_i others last second
      rcases List.mem_cons.mp member with rfl | later
      · exact ⟨rejected, _, found⟩
      · exact inductionHypothesis second later

/-- A run that ends visits no state that stalls. -/
theorem not_stalls_of_parsed {unicode : Unicode} {fuel : Nat} {lines other : List JsString}
    {i j : Nat} {blocks : List Block} {rejected : List RejectedUrl}
    {result : List Block × List RejectedUrl}
    (parsed : parseBlocksFrom unicode fuel lines i blocks rejected = some result)
    (visits : Visits unicode lines i other j) : ¬ Stalls other j := by
  -- On the fuel: a stalled state is met again with less of it, so it never ends.
  induction fuel generalizing lines i blocks rejected result with
  | zero => cases parsed
  | succ fuel inductionHypothesis =>
      have inside : i < lines.length := by
        cases visits with
        | here inside => exact inside
        | next inside _ => exact inside
        | nested inside _ _ => exact inside
      simp only [parseBlocksFrom, if_pos inside] at parsed
      split at parsed
      · cases parsed
      rename_i children refused bodies
      cases visits with
      | here =>
          intro stalls
          have stays : (blockAt unicode other j).2 = j := by
            have := mt (blockAt_advances unicode inside).mp (not_not.mpr stalls)
            have := blockAt_ge unicode inside
            omega
          rw [stays] at parsed
          exact inductionHypothesis parsed (.here inside) stalls
      | next _ later => exact inductionHypothesis parsed later
      | nested _ member below =>
          obtain ⟨before, result, found⟩ := parseBodies_each bodies member
          exact inductionHypothesis found below

private theorem parseBodies_exists (unicode : Unicode) {bodies : List (List JsString)}
    (each : ∀ body ∈ bodies, ∀ rejected,
      ∃ fuel result, parseBlocksFrom unicode fuel body 0 [] rejected = some result)
    (rejected : List RejectedUrl) :
    ∃ fuel result,
      parseBodies (fun body => parseBlocksFrom unicode fuel body 0 []) bodies rejected =
        some result := by
  induction bodies generalizing rejected with
  | nil => exact ⟨0, _, rfl⟩
  | cons body rest inductionHypothesis =>
      obtain ⟨first, blocks, found⟩ := each body (List.mem_cons_self ..) rejected
      obtain ⟨second, others, after⟩ := inductionHypothesis
        (fun other member => each other (List.mem_cons_of_mem _ member)) blocks.2
      refine ⟨max first second, (blocks.1 :: others.1, others.2), ?_⟩
      have foundMore := parseBlocksFrom_mono found (Nat.le_max_left first second)
      have afterMore := parseBodies_mono
        (fun body => parseBlocksFrom unicode (max first second) body 0 [])
        (fun _ _ _ result => parseBlocksFrom_mono result (Nat.le_max_right first second)) after
      simp only [parseBodies, foundMore, afterMore]

/-- A run that visits no state that stalls ends. -/
theorem parsed_of_not_stalls (unicode : Unicode) (lines : List JsString) (i : Nat)
    (advances : ∀ other j, Visits unicode lines i other j → ¬ Stalls other j)
    (blocks : List Block) (rejected : List RejectedUrl) :
    ∃ fuel result, parseBlocksFrom unicode fuel lines i blocks rejected = some result := by
  by_cases inside : i < lines.length
  · have later : i < (blockAt unicode lines i).2 :=
      (blockAt_advances unicode inside).mpr (advances _ _ (.here inside))
    obtain ⟨first, children, bodies⟩ := parseBodies_exists unicode
      (fun body member rejected =>
        have smaller := blockAt_bodies unicode inside member
        parsed_of_not_stalls unicode body 0
          (fun other j visits => advances other j (.nested inside member visits)) [] rejected)
      rejected
    let emitted := emitBlock unicode (blockAt unicode lines i).1 children.1 children.2
    obtain ⟨second, result, rest⟩ := parsed_of_not_stalls unicode lines (blockAt unicode lines i).2
      (fun other j visits => advances other j (.next inside visits)) (blocks ++ emitted.1) emitted.2
    refine ⟨max first second + 1, result, ?_⟩
    have bodiesMore := parseBodies_mono
      (fun body => parseBlocksFrom unicode (max first second) body 0 [])
      (fun _ _ _ found => parseBlocksFrom_mono found (Nat.le_max_left first second)) bodies
    simp only [parseBlocksFrom, if_pos inside, bodiesMore]
    exact parseBlocksFrom_mono rest (Nat.le_max_right first second)
  · exact ⟨1, (blocks, rejected), by simp only [parseBlocksFrom, if_neg inside]⟩
termination_by (weight lines, lines.length - i)

/-! ### The document -/

private theorem exists_document_iff (unicode : Unicode) (source : JsString) :
    (∃ fuel document, parseMarkdown unicode fuel source = some document) ↔
      ∃ fuel result, parseBlocksFrom unicode fuel (lines source) 0 [] [] = some result := by
  constructor
  · rintro ⟨fuel, document, parsed⟩
    unfold parseMarkdown at parsed
    split at parsed
    · cases parsed
    · rename_i blocks rejectedUrls found
      exact ⟨fuel, _, found⟩
  · rintro ⟨fuel, result, found⟩
    exact ⟨fuel, ⟨result.1, findRawHtml source, result.2⟩, by
      simp only [parseMarkdown, parseBlocks, found]⟩

/-- One iteration advances exactly when its state does not stall, and a source has a
document exactly when no state its parse reaches stalls. -/
theorem parseMarkdown_terminates_iff (unicode : Unicode) :
    (∀ lines i, i < lines.length → (i < (blockAt unicode lines i).2 ↔ ¬ Stalls lines i)) ∧
      ∀ source, (∃ fuel document, parseMarkdown unicode fuel source = some document) ↔
        ∀ other j, Reached unicode source other j → ¬ Stalls other j := by
  refine ⟨fun lines i inside => blockAt_advances unicode inside, fun source => ?_⟩
  rw [exists_document_iff]
  constructor
  · rintro ⟨fuel, result, found⟩ other j reached
    exact not_stalls_of_parsed found reached
  · intro advances
    exact parsed_of_not_stalls unicode (lines source) 0 advances [] []

/-- A header of three columns over a delimiter row of one: no rule takes the first line. -/
theorem parseMarkdown_diverges :
    ¬ ∃ unicode fuel document, parseMarkdown unicode fuel (js "a|b|c\n|-|") = some document := by
  rintro ⟨unicode, ends⟩
  obtain ⟨fuel, result, found⟩ := (exists_document_iff unicode _).mp ends
  have source : lines (js "a|b|c\n|-|") = [js "a|b|c", js "|-|"] := by decide
  have stalls : Stalls [js "a|b|c", js "|-|"] 0 := by decide
  rw [source] at found
  exact not_stalls_of_parsed found (.here (by decide)) stalls

/-- The other kind: a first item whose text has a line separator in it. -/
example : Stalls [js "1. a b"] 0 := by decide

end Assaybank.Markdown
