import Assaybank.Markdown.Inline

/-!
Owns the code spans a source determines on its own: backslash escapes skipped, each run
of backticks paired with the next run of the same length. It proves that `parseInline`
(`packages/markdown/src/inline.ts`) makes code nodes of exactly these as long as no
emphasis is closed inside one. It does not own destinations: no source here holds a link,
an image or an autolink.
-/

namespace Assaybank.Markdown

open Assaybank.Runtime

mutual

/-- The values of the code nodes in one node, in document order. -/
def Inline.codeValues : Inline → List JsString
  | .text _ => []
  | .code value => [value]
  | .strong children => Markdown.codeValues children
  | .emphasis children => Markdown.codeValues children
  | .link _ children => Markdown.codeValues children
  | .image _ _ => []
  | .lineBreak => []

/-- The values of the code nodes in a run of nodes, in document order. -/
def codeValues : List Inline → List JsString
  | [] => []
  | node :: rest => node.codeValues ++ Markdown.codeValues rest

end

/-- A code span of a source: where its opening run starts, the length of its two runs,
and where its closing run starts. -/
structure CodeSpan where
  start : Nat
  length : Nat
  close : Nat
deriving DecidableEq, Repr

/-- What stands between the two runs. -/
def CodeSpan.content (src : JsString) (span : CodeSpan) : JsString :=
  slice src (span.start + span.length) span.close

/-- A position inside a code span, its runs included. -/
def CodeSpan.Holds (span : CodeSpan) (place : Nat) : Prop :=
  span.start ≤ place ∧ place < span.close + span.length

instance (span : CodeSpan) (place : Nat) : Decidable (span.Holds place) :=
  inferInstanceAs (Decidable (_ ∧ _))

/-- A run of exactly `length` backticks starts here, and none before it belongs to it. -/
def isRunAt (src : JsString) (length place : Nat) : Bool :=
  runLength src place (unit '`') == length && (place == 0 || src[place - 1]? != some (unit '`'))

/-- The first run of exactly `length` backticks at or after a position. -/
def nextRun (src : JsString) (length place : Nat) : Option Nat :=
  (List.range' place (src.length - place)).find? (isRunAt src length)

theorem nextRun_eq_some {src : JsString} {length place found : Nat} :
    nextRun src length place = some found ↔
      isRunAt src length found = true ∧ (place ≤ found ∧ found < src.length) ∧
        ∀ other, place ≤ other → other < found → isRunAt src length other = false := by
  unfold nextRun
  rw [List.find?_range'_eq_some, List.mem_range'_1]
  constructor
  · rintro ⟨run, inside, first⟩
    refine ⟨run, by omega, fun other later before => ?_⟩
    simpa using first other later before
  · rintro ⟨run, inside, first⟩
    refine ⟨run, by omega, fun other later before => ?_⟩
    simpa using first other later before

theorem nextRun_eq_none {src : JsString} {length place : Nat} :
    nextRun src length place = none ↔
      ∀ other, place ≤ other → other < src.length → isRunAt src length other = false := by
  unfold nextRun
  rw [List.find?_range'_eq_none]
  constructor
  · intro absent other later before
    simpa using absent other later (by omega)
  · intro absent other later before
    simpa using absent other later (by omega)

/-- The code spans of a source from a position on, from left to right. A backslash and
the unit after it are skipped, and so is a run that is not met again. -/
def codeSpansFrom (src : JsString) (i : Nat) : List CodeSpan :=
  match _here : src[i]? with
  | none => []
  | some char =>
      if char = unit '\\' then codeSpansFrom src (i + 2)
      else if _tick : char = unit '`' then
        let length := runLength src i (unit '`')
        match _found : nextRun src length (i + length) with
        | some close => ⟨i, length, close⟩ :: codeSpansFrom src (close + length)
        | none => codeSpansFrom src (i + length)
      else codeSpansFrom src (i + 1)
termination_by src.length - i
decreasing_by
  · have := (List.getElem?_eq_some_iff.mp _here).1
    omega
  · have := (List.getElem?_eq_some_iff.mp _here).1
    have := (nextRun_eq_some.mp _found).2.1
    have := runLength_pos (_tick ▸ _here)
    omega
  · have := (List.getElem?_eq_some_iff.mp _here).1
    have := runLength_pos (_tick ▸ _here)
    omega
  · have := (List.getElem?_eq_some_iff.mp _here).1
    omega

/-- The code spans a left-to-right scan of the whole source determines. -/
def codeSpans (src : JsString) : List CodeSpan := codeSpansFrom src 0

section Scan

variable {src : JsString} {i : Nat}

theorem codeSpansFrom_end (ended : src[i]? = none) : codeSpansFrom src i = [] := by
  rw [codeSpansFrom, ended]

theorem codeSpansFrom_escape (here : src[i]? = some (unit '\\')) :
    codeSpansFrom src i = codeSpansFrom src (i + 2) := by
  rw [codeSpansFrom, here]
  simp only [if_true]

theorem codeSpansFrom_open (here : src[i]? = some (unit '`'))
    (alone : nextRun src (runLength src i (unit '`')) (i + runLength src i (unit '`')) = none) :
    codeSpansFrom src i = codeSpansFrom src (i + runLength src i (unit '`')) := by
  have different : unit '`' ≠ unit '\\' := by decide
  rw [codeSpansFrom, here]
  simp only [different, if_false, dif_pos]
  split
  · rename_i found
    rw [alone] at found
    cases found
  · rfl

theorem codeSpansFrom_closed {close : Nat} (here : src[i]? = some (unit '`'))
    (met : nextRun src (runLength src i (unit '`')) (i + runLength src i (unit '`')) =
      some close) :
    codeSpansFrom src i =
      ⟨i, runLength src i (unit '`'), close⟩ ::
        codeSpansFrom src (close + runLength src i (unit '`')) := by
  have different : unit '`' ≠ unit '\\' := by decide
  rw [codeSpansFrom, here]
  simp only [different, if_false, dif_pos]
  split
  · rename_i found
    rw [met] at found
    cases found
    rfl
  · rename_i found
    rw [met] at found
    cases found

theorem codeSpansFrom_plain {char : CodeUnit} (here : src[i]? = some char)
    (noEscape : char ≠ unit '\\') (noTick : char ≠ unit '`') :
    codeSpansFrom src i = codeSpansFrom src (i + 1) := by
  rw [codeSpansFrom, here]
  simp only [noEscape, noTick, if_false, dif_neg, not_false_iff]

end Scan

/-- Along the parse from a position on, and along the parse of every inside, each
emphasis is closed outside the code spans that follow its opening. -/
inductive ClosedOutside (unicode : Unicode) : JsString → Nat → Prop
  | stop {src : JsString} {i : Nat} (ended : src[i]? = none) : ClosedOutside unicode src i
  | pass {src : JsString} {i : Nat} {char : CodeUnit} (here : src[i]? = some char)
      (other : ∀ strong inner next, stepAt unicode src i char ≠ .emphasis strong inner next)
      (later : ClosedOutside unicode src (stepAt unicode src i char).next) :
      ClosedOutside unicode src i
  | emphasis {src : JsString} {i close : Nat} {char : CodeUnit} {strong : Bool}
      (here : src[i]? = some char)
      (opens : stepAt unicode src i char =
        .emphasis strong (slice src (i + markerWidth strong) close) (close + markerWidth strong))
      (outside : ∀ span ∈ codeSpansFrom src i, ¬ span.Holds close)
      (inside : ClosedOutside unicode (slice src (i + markerWidth strong) close) 0)
      (later : ClosedOutside unicode src (close + markerWidth strong)) :
      ClosedOutside unicode src i

/-! ### Runs -/

/-- From a position on there stand `length` backticks. -/
private def Ticks (src : JsString) (length place : Nat) : Prop :=
  ∀ k < length, src[place + k]? = some (unit '`')

private theorem after_takeWhile {p : CodeUnit → Bool} {rest : JsString} {c : CodeUnit}
    (next : rest[(rest.takeWhile p).length]? = some c) : p c = false := by
  induction rest with
  | nil => cases next
  | cons first rest inductionHypothesis =>
      by_cases kept : p first = true
      · rw [List.takeWhile_cons_of_pos kept, List.length_cons, List.getElem?_cons_succ] at next
        exact inductionHypothesis next
      · rw [List.takeWhile_cons_of_neg kept] at next
        cases next
        exact Bool.eq_false_iff.mpr kept

/-- What stands at the places of a run, and that nothing of it stands after them. -/
private theorem runLength_units (src : JsString) (place : Nat) (c : CodeUnit) :
    (∀ k < runLength src place c, src[place + k]? = some c) ∧
      src[place + runLength src place c]? ≠ some c := by
  unfold runLength
  constructor
  · intro k less
    have inside := List.getElem?_eq_getElem less
    have same := List.mem_takeWhile_imp (List.mem_of_getElem? inside)
    obtain ⟨tail, whole⟩ := List.takeWhile_prefix (· == c) (l := src.drop place)
    rw [← List.getElem?_drop, ← whole, List.getElem?_append_left less, inside]
    exact congrArg some (beq_iff_eq.mp same)
  · rw [← List.getElem?_drop]
    intro here
    exact absurd (after_takeWhile here) (by simp)

private theorem runLength_ticks (src : JsString) (place : Nat) :
    Ticks src (runLength src place (unit '`')) place ∧
      src[place + runLength src place (unit '`')]? ≠ some (unit '`') :=
  runLength_units src place (unit '`')

private theorem runLength_unique {src : JsString} {length place : Nat}
    (ticks : Ticks src length place) (ends : src[place + length]? ≠ some (unit '`')) :
    runLength src place (unit '`') = length := by
  obtain ⟨run, stop⟩ := runLength_ticks src place
  rcases Nat.lt_trichotomy (runLength src place (unit '`')) length with less | same | more
  · exact absurd (ticks _ less) stop
  · exact same
  · exact absurd (run _ more) ends

private theorem isRunAt_iff {src : JsString} {length place : Nat} :
    isRunAt src length place = true ↔
      Ticks src length place ∧ src[place + length]? ≠ some (unit '`') ∧
        (place = 0 ∨ src[place - 1]? ≠ some (unit '`')) := by
  simp only [isRunAt, Bool.and_eq_true, Bool.or_eq_true, beq_iff_eq, bne_iff_ne, ne_eq]
  constructor
  · rintro ⟨rfl, before⟩
    obtain ⟨ticks, ends⟩ := runLength_ticks src place
    exact ⟨ticks, ends, before⟩
  · rintro ⟨ticks, ends, before⟩
    exact ⟨runLength_unique ticks ends, before⟩

private theorem ticks_iff_starts {src : JsString} {length place : Nat} :
    Ticks src length place ↔ List.replicate length (unit '`') <+: src.drop place := by
  rw [List.prefix_iff_getElem?]
  simp only [List.length_replicate, List.getElem_replicate, List.getElem?_drop]
  rfl

/-- `indexOf` finds the first place where the backticks stand. -/
private theorem indexOf_ticks {src : JsString} {length search : Nat} :
    (∀ found, indexOf src (List.replicate length (unit '`')) search = some found →
      search ≤ found ∧ Ticks src length found ∧
        ∀ other, search ≤ other → other < found → ¬ Ticks src length other) ∧
    (indexOf src (List.replicate length (unit '`')) search = none →
      ∀ other, search ≤ other → other ≤ src.length → ¬ Ticks src length other) := by
  unfold indexOf
  constructor
  · intro found result
    rw [List.find?_range'_eq_some, List.mem_range'_1] at result
    obtain ⟨here, inside, first⟩ := result
    refine ⟨inside.1, ticks_iff_starts.mpr (List.isPrefixOf_iff_prefix.mp here), ?_⟩
    intro other later before ticks
    have absent := first other later before
    rw [Bool.not_eq_true', ← Bool.not_eq_true, List.isPrefixOf_iff_prefix] at absent
    exact absent (ticks_iff_starts.mp ticks)
  · intro result other later before ticks
    rw [List.find?_range'_eq_none] at result
    have absent := result other later (by omega)
    rw [Bool.not_eq_true', ← Bool.not_eq_true, List.isPrefixOf_iff_prefix] at absent
    exact absent (ticks_iff_starts.mp ticks)

/-- The parser's search, started past a run, finds the next run of the same length. -/
private theorem codeClose_eq_nextRun {src : JsString} {length search : Nat}
    (positive : 0 < length) (edge : src[search]? ≠ some (unit '`')) :
    codeClose src length search = nextRun src length search := by
  fun_induction codeClose src length search with
  | case1 search inside absent =>
      symm
      rw [nextRun_eq_none]
      intro other later before
      rw [← Bool.not_eq_true, isRunAt_iff]
      rintro ⟨ticks, _⟩
      exact indexOf_ticks.2 absent other later (Nat.le_of_lt before) ticks
  | case2 search inside position found more inductionHypothesis =>
      obtain ⟨later, ticks, first⟩ := indexOf_ticks.1 position found
      obtain ⟨moreTicks, ends⟩ := runLength_ticks src (position + length)
      rw [inductionHypothesis ends]
      generalize runLength src (position + length) (unit '`') = extra at moreTicks ends
      have none : ∀ other, search ≤ other → other < position + length + extra →
          isRunAt src length other = false := by
        intro other past before
        rw [← Bool.not_eq_true, isRunAt_iff]
        rintro ⟨otherTicks, otherEnds, start⟩
        rcases Nat.lt_trichotomy other position with less | rfl | beyond
        · exact first other past less otherTicks
        · exact otherEnds more
        · have tick : src[other - 1]? = some (unit '`') := by
            rcases Nat.lt_or_ge (other - 1) (position + length) with near | far
            · have := ticks (other - 1 - position) (by omega)
              rwa [show position + (other - 1 - position) = other - 1 by omega] at this
            · have := moreTicks (other - 1 - (position + length)) (by omega)
              rwa [show position + length + (other - 1 - (position + length)) = other - 1 by
                omega] at this
          rcases start with zero | other
          · omega
          · exact other tick
      cases result : nextRun src length (position + length + extra) with
      | none =>
          rw [nextRun_eq_none] at result
          symm
          rw [nextRun_eq_none]
          intro other past before
          rcases Nat.lt_or_ge other (position + length + extra) with near | far
          · exact none other past near
          · exact result other far before
      | some close =>
          obtain ⟨run, inside, earlier⟩ := nextRun_eq_some.mp result
          symm
          rw [nextRun_eq_some]
          refine ⟨run, by omega, fun other past before => ?_⟩
          rcases Nat.lt_or_ge other (position + length + extra) with near | far
          · exact none other past near
          · exact earlier other far before
  | case3 search inside position found exact_ =>
      obtain ⟨later, ticks, first⟩ := indexOf_ticks.1 position found
      symm
      rw [nextRun_eq_some, isRunAt_iff]
      have here : src[position]? = some (unit '`') := ticks 0 positive
      have beyond : search < position := by
        rcases Nat.lt_or_eq_of_le later with less | same
        · exact less
        · rw [← same] at here
          exact absurd here edge
      refine ⟨⟨ticks, exact_, ?_⟩, ⟨later, (List.getElem?_eq_some_iff.mp here).1⟩, ?_⟩
      · right
        intro before
        apply first (position - 1) (by omega) (by omega)
        intro k less
        cases k with
        | zero => exact before
        | succ k =>
            have := ticks k (by omega)
            rwa [show position - 1 + (k + 1) = position + k by omega]
      · intro other past before
        rw [← Bool.not_eq_true, isRunAt_iff]
        exact fun run => first other past before run.1
  | case4 search outside =>
      symm
      rw [nextRun_eq_none]
      intro other later before
      omega

/-! ### One scan and the scan of a slice -/

private theorem getElem?_slice {src : JsString} {start stop place : Nat} (later : start ≤ place)
    (before : place < stop) : (slice src start stop)[place - start]? = src[place]? := by
  rw [slice, List.getElem?_drop, List.getElem?_take_of_lt (by omega), Nat.add_sub_cancel' later]

private theorem getElem?_slice_end {src : JsString} {start stop place : Nat}
    (beyond : stop ≤ place) : (slice src start stop)[place - start]? = none := by
  rw [slice, List.getElem?_eq_none]
  rw [List.length_drop, List.length_take]
  omega

private theorem slice_slice {src : JsString} {start stop first last : Nat} (later : start ≤ first)
    (within : last ≤ stop) :
    slice (slice src start stop) (first - start) (last - start) = slice src first last := by
  apply List.ext_getElem?
  intro k
  simp only [slice, List.getElem?_drop, List.getElem?_take]
  rw [show start + (first - start + k) = first + k by omega]
  by_cases inside : first + k < last
  · rw [if_pos (by omega), if_pos (by omega), if_pos inside]
  · rw [if_neg (by omega), if_neg inside]

section Slices

variable {src : JsString} {start stop : Nat}

/-- A run inside the slice is a run of the source, when the unit after the slice is no
backtick. -/
private theorem isRunAt_slice (edge : src[stop]? ≠ some (unit '`')) {length place : Nat}
    (later : start < place) (before : place < stop) :
    isRunAt (slice src start stop) length (place - start) = isRunAt src length place := by
  rw [Bool.eq_iff_iff, isRunAt_iff, isRunAt_iff]
  have previous : (slice src start stop)[place - start - 1]? = src[place - 1]? := by
    rw [show place - start - 1 = place - 1 - start by omega]
    exact getElem?_slice (by omega) (by omega)
  have shifted : ∀ k, (slice src start stop)[place - start + k]? =
      if place + k < stop then src[place + k]? else none := by
    intro k
    rw [show place - start + k = place + k - start by omega]
    split
    · exact getElem?_slice (by omega) (by assumption)
    · exact getElem?_slice_end (by omega)
  have short : Ticks src length place → place + length ≤ stop := by
    intro ticks
    by_contra beyond
    apply edge
    have := ticks (stop - place) (by omega)
    rwa [Nat.add_sub_cancel' (Nat.le_of_lt before)] at this
  constructor
  · rintro ⟨ticks, ends, first⟩
    have whole : Ticks src length place := by
      intro k less
      have tick := ticks k less
      rw [shifted] at tick
      split at tick
      · exact tick
      · cases tick
    refine ⟨whole, ?_, Or.inr ?_⟩
    · intro more
      rw [shifted] at ends
      split at ends
      · exact ends more
      · have within := short whole
        rw [show place + length = stop by omega] at more
        exact edge more
    · rw [← previous]
      rcases first with zero | first
      · omega
      · exact first
  · rintro ⟨ticks, ends, first⟩
    have within := short ticks
    refine ⟨fun k less => ?_, ?_, Or.inr ?_⟩
    · rw [shifted, if_pos (by omega)]
      exact ticks k less
    · rw [shifted]
      split
      · exact ends
      · exact nofun
    · rw [previous]
      rcases first with zero | first
      · omega
      · exact first

private theorem length_slice (inside : stop ≤ src.length) :
    (slice src start stop).length = stop - start := by
  rw [slice, List.length_drop, List.length_take, Nat.min_eq_left inside]

private theorem nextRun_slice_some (edge : src[stop]? ≠ some (unit '`'))
    (inside : stop ≤ src.length) {length place close : Nat} (later : start < place)
    (found : nextRun src length place = some close) (before : close < stop) :
    nextRun (slice src start stop) length (place - start) = some (close - start) := by
  obtain ⟨run, ⟨past, _⟩, first⟩ := nextRun_eq_some.mp found
  rw [nextRun_eq_some, length_slice inside]
  refine ⟨?_, ⟨by omega, by omega⟩, fun other after earlier => ?_⟩
  · rw [isRunAt_slice edge (by omega) before]
    exact run
  · have same : isRunAt (slice src start stop) length (other + start - start) =
        isRunAt src length (other + start) := isRunAt_slice edge (by omega) (by omega)
    rw [Nat.add_sub_cancel] at same
    rw [same]
    exact first _ (by omega) (by omega)

private theorem nextRun_slice_none (edge : src[stop]? ≠ some (unit '`'))
    (inside : stop ≤ src.length) {length place : Nat} (later : start < place)
    (absent : ∀ close, nextRun src length place = some close → stop ≤ close) :
    nextRun (slice src start stop) length (place - start) = none := by
  rw [nextRun_eq_none, length_slice inside]
  intro other after earlier
  have same : isRunAt (slice src start stop) length (other + start - start) =
      isRunAt src length (other + start) := isRunAt_slice edge (by omega) (by omega)
  rw [Nat.add_sub_cancel] at same
  rw [same, ← Bool.not_eq_true]
  intro run
  cases result : nextRun src length place with
  | none =>
      rw [nextRun_eq_none] at result
      rw [result _ (by omega) (by omega)] at run
      cases run
  | some close =>
      have beyond := absent close result
      rw [(nextRun_eq_some.mp result).2.2 _ (by omega) (by omega)] at run
      cases run

/-- A run that starts in the slice ends in it and has the same length there. -/
private theorem runLength_slice (edge : src[stop]? ≠ some (unit '`')) {place : Nat}
    (later : start ≤ place) (before : place < stop) :
    runLength (slice src start stop) (place - start) (unit '`') = runLength src place (unit '`') ∧
      place + runLength src place (unit '`') ≤ stop := by
  obtain ⟨ticks, ends⟩ := runLength_ticks src place
  have within : place + runLength src place (unit '`') ≤ stop := by
    by_contra beyond
    apply edge
    have := ticks (stop - place) (by omega)
    rwa [Nat.add_sub_cancel' (Nat.le_of_lt before)] at this
  refine ⟨runLength_unique (fun k less => ?_) ?_, within⟩
  · rw [show place - start + k = place + k - start by omega,
      getElem?_slice (by omega) (by omega)]
    exact ticks k less
  · rw [show ∀ n, place - start + n = place + n - start by omega]
    rcases Nat.lt_or_eq_of_le within with less | same
    · rw [getElem?_slice (by omega) less]
      exact ends
    · rw [same, getElem?_slice_end (Nat.le_refl _)]
      exact nofun

/-- **A slice that no code span crosses.** The spans of the source from a position of the
slice on are those of the slice, and then those after the unit that ends it. -/
private theorem codeSpansFrom_slice {char : CodeUnit} (ends : src[stop]? = some char)
    (noEscape : char ≠ unit '\\') (noTick : char ≠ unit '`') {place : Nat}
    (later : start ≤ place) (before : place ≤ stop)
    (outside : ∀ span ∈ codeSpansFrom src place, ¬ span.Holds stop) :
    (codeSpansFrom src place).map (CodeSpan.content src) =
      (codeSpansFrom (slice src start stop) (place - start)).map
          (CodeSpan.content (slice src start stop)) ++
        (codeSpansFrom src (stop + 1)).map (CodeSpan.content src) := by
  have inside : stop < src.length := (List.getElem?_eq_some_iff.mp ends).1
  have edge : src[stop]? ≠ some (unit '`') := by
    rw [ends]
    exact fun same => noTick (Option.some.inj same)
  rcases Nat.lt_or_eq_of_le before with less | rfl
  · have here : src[place]? = some src[place] := List.getElem?_eq_getElem (by omega)
    have same : (slice src start stop)[place - start]? = some src[place] := by
      rw [getElem?_slice later less, here]
    generalize src[place] = c at here same
    by_cases escape : c = unit '\\'
    · rw [escape] at here same
      rw [codeSpansFrom_escape here] at outside ⊢
      rw [codeSpansFrom_escape same]
      rcases Nat.lt_or_ge stop (place + 2) with beyond | within
      · -- The escape is the last unit of the slice and skips the one after it.
        have ended : (slice src start stop)[place - start + 2]? = none := by
          rw [show place - start + 2 = stop + 1 - start by omega]
          exact getElem?_slice_end (by omega)
        rw [codeSpansFrom_end ended, show place + 2 = stop + 1 by omega]
        rfl
      · rw [codeSpansFrom_slice ends noEscape noTick (by omega) within outside,
          show place - start + 2 = place + 2 - start by omega]
    · by_cases tick : c = unit '`'
      · rw [tick] at here same
        obtain ⟨sameLength, within⟩ := runLength_slice edge later less
        have positive := runLength_pos here
        cases result : nextRun src (runLength src place (unit '`'))
            (place + runLength src place (unit '`')) with
        | none =>
            have sliced : nextRun (slice src start stop) (runLength src place (unit '`'))
                (place + runLength src place (unit '`') - start) = none := by
              apply nextRun_slice_none edge (Nat.le_of_lt inside) (by omega)
              intro close found
              rw [result] at found
              cases found
            rw [Nat.sub_add_comm later, ← sameLength] at sliced
            rw [codeSpansFrom_open here result] at outside ⊢
            rw [codeSpansFrom_open same sliced,
              codeSpansFrom_slice ends noEscape noTick (by omega) within outside, sameLength,
              Nat.sub_add_comm later]
        | some close =>
            obtain ⟨run, ⟨past, _⟩, _⟩ := nextRun_eq_some.mp result
            rw [codeSpansFrom_closed here result] at outside ⊢
            have closed : close + runLength src place (unit '`') ≤ stop := by
              have notHeld := outside _ List.mem_cons_self
              by_contra crosses
              exact notHeld ⟨Nat.le_of_lt less, Nat.lt_of_not_le crosses⟩
            have sliced : nextRun (slice src start stop) (runLength src place (unit '`'))
                (place + runLength src place (unit '`') - start) = some (close - start) :=
              nextRun_slice_some edge (Nat.le_of_lt inside) (by omega) result (by omega)
            rw [Nat.sub_add_comm later, ← sameLength] at sliced
            rw [codeSpansFrom_closed same sliced, List.map_cons, List.map_cons, List.cons_append,
              codeSpansFrom_slice ends noEscape noTick (by omega) closed
                fun span member => outside span (List.mem_cons_of_mem _ member),
              sameLength, ← Nat.sub_add_comm (by omega)]
            congr 1
            show slice src (place + runLength src place (unit '`')) close =
              slice (slice src start stop) (place - start + runLength src place (unit '`'))
                (close - start)
            rw [← Nat.sub_add_comm later, slice_slice (by omega) (by omega)]
      · rw [codeSpansFrom_plain here escape tick] at outside ⊢
        rw [codeSpansFrom_plain same escape tick,
          codeSpansFrom_slice ends noEscape noTick (by omega) less outside,
          show place - start + 1 = place + 1 - start by omega]
  · have ended : (slice src start place)[place - start]? = none :=
      getElem?_slice_end (Nat.le_refl _)
    rw [codeSpansFrom_plain ends noEscape noTick, codeSpansFrom_end ended]
    rfl
termination_by stop - place
decreasing_by all_goals omega

end Slices

/-! ### What the parser makes of one position -/

/-- A source without autolink, link or image: no `<` and no `](`. -/
structure Unlinked (src : JsString) : Prop where
  noAngle : unit '<' ∉ src
  noBracket : ¬ js "](" <:+: src

private theorem slice_within (src : JsString) (start stop : Nat) : slice src start stop <:+: src :=
  (List.drop_suffix _ _).isInfix.trans (List.take_prefix _ _).isInfix

private theorem Unlinked.slice {src : JsString} (unlinked : Unlinked src) (start stop : Nat) :
    Unlinked (slice src start stop) :=
  ⟨fun member => unlinked.noAngle ((slice_within src start stop).subset member),
    fun bracket => unlinked.noBracket (bracket.trans (slice_within src start stop))⟩

private theorem closingBracketFrom_closes {rest : JsString} {i : Nat} {depth : Int} {close : Nat}
    (found : closingBracketFrom rest i depth = some close) :
    ∃ k, close = i + k ∧ rest[k]? = some (unit ']') := by
  fun_induction closingBracketFrom rest i depth with
  | case1 => cases found
  | case2 => cases found
  | case3 _ _ _ _ inductionHypothesis =>
      obtain ⟨k, rfl, closes⟩ := inductionHypothesis found
      exact ⟨k + 2, by omega, closes⟩
  | case4 _ _ _ _ inductionHypothesis =>
      obtain ⟨k, rfl, closes⟩ := inductionHypothesis found
      exact ⟨k + 1, by omega, closes⟩
  | case5 =>
      cases found
      exact ⟨0, rfl, rfl⟩
  | case6 _ _ _ _ _ _ inductionHypothesis =>
      obtain ⟨k, rfl, closes⟩ := inductionHypothesis found
      exact ⟨k + 1, by omega, closes⟩
  | case7 _ _ _ _ _ _ _ inductionHypothesis =>
      obtain ⟨k, rfl, closes⟩ := inductionHypothesis found
      exact ⟨k + 1, by omega, closes⟩

private theorem labelAndDestination_unlinked {src : JsString} (unlinked : Unlinked src)
    (start : Nat) : labelAndDestination src start = none := by
  cases result : labelAndDestination src start with
  | none => rfl
  | some found =>
      exfalso
      unfold labelAndDestination at result
      split at result
      · cases result
      rename_i close closes
      split at result
      · cases result
      rename_i reads
      obtain ⟨k, rfl, bracket⟩ := closingBracketFrom_closes closes
      rw [List.getElem?_drop] at bracket
      unfold readDestination at reads
      split at reads
      · rename_i parenthesis
        apply unlinked.noBracket
        obtain ⟨inside, value⟩ := List.getElem?_eq_some_iff.mp bracket
        obtain ⟨insideNext, valueNext⟩ := List.getElem?_eq_some_iff.mp parenthesis
        have both : src.drop (start + k) =
            unit ']' :: unit '(' :: src.drop (start + k + 1 + 1) := by
          rw [List.drop_eq_getElem_cons inside, List.drop_eq_getElem_cons insideNext, value,
            valueNext]
        refine List.IsInfix.trans ?_ (List.drop_suffix (start + k) src).isInfix
        rw [both]
        exact ⟨[], _, rfl⟩
      · cases reads

private theorem emphasisClose_marks {unicode : Unicode} {src : JsString} {marker : CodeUnit}
    {strong : Bool} {i close : Nat}
    (found : emphasisClose unicode src marker strong i = some close) :
    i ≤ close ∧ List.replicate (markerWidth strong) marker <+: src.drop close := by
  fun_induction emphasisClose unicode src marker strong i with
  | case1 => cases found
  | case2 _ _ _ position result _ inductionHypothesis =>
      have := (indexOf_spec result).1
      obtain ⟨later, marks⟩ := inductionHypothesis found
      exact ⟨by omega, marks⟩
  | case3 _ _ _ position result =>
      cases found
      exact ⟨(indexOf_spec result).1, (indexOf_spec result).2.2⟩
  | case4 _ _ _ position result _ _ inductionHypothesis =>
      have := (indexOf_spec result).1
      obtain ⟨later, marks⟩ := inductionHypothesis found
      exact ⟨by omega, marks⟩
  | case5 => cases found

private theorem emphasisRun_marks {unicode : Unicode} {src : JsString} {start : Nat}
    {marker : CodeUnit} {strong : Bool} {close : Nat}
    (found : emphasisRun unicode src start marker strong = some close) :
    start + markerWidth strong ≤ close ∧
      List.replicate (markerWidth strong) marker <+: src.drop close := by
  unfold emphasisRun at found
  simp only at found
  split at found
  · cases found
  split at found
  · cases found
  · exact emphasisClose_marks found

/-! ### Code nodes -/

@[simp] theorem codeValues_append (left right : List Inline) :
    codeValues (left ++ right) = codeValues left ++ codeValues right := by
  induction left with
  | nil => simp [codeValues]
  | cons node rest inductionHypothesis => simp [codeValues, inductionHypothesis]

private theorem codeValues_pushText (out : List Inline) (value : JsString) :
    codeValues (pushText out value) = codeValues out := by
  unfold pushText
  split
  · rfl
  · split
    · rename_i last ends
      obtain ⟨rest, rfl⟩ := List.getLast?_eq_some_iff.mp ends
      simp [codeValues, Inline.codeValues]
    · simp [codeValues, Inline.codeValues]

private theorem codeValues_stripTrailing (out : List Inline) :
    codeValues (stripTrailing out).reverse = codeValues out.reverse := by
  fun_induction stripTrailing out with
  | case1 value rest trimmed empty inductionHypothesis =>
      rw [inductionHypothesis]
      simp [codeValues, Inline.codeValues]
  | case2 value rest trimmed _ => simp [codeValues, Inline.codeValues]
  | case3 out => rfl

private theorem codeValues_trimHardBreak (out : List Inline) :
    codeValues (trimHardBreak out) = codeValues out := by
  rw [trimHardBreak, codeValues_stripTrailing, List.reverse_reverse]

/-- The values of the code spans of a source from a position on. -/
private def spanValues (src : JsString) (i : Nat) : List JsString :=
  ((codeSpansFrom src i).map (CodeSpan.content src)).map codeValue

private theorem spanValues_of_eq {src : JsString} {i next : Nat}
    (same : codeSpansFrom src i = codeSpansFrom src next) :
    spanValues src i = spanValues src next := by
  unfold spanValues
  rw [same]

/-- A run of a unit that is neither backslash nor backtick is passed over. -/
private theorem codeSpansFrom_units {src : JsString} {char : CodeUnit}
    (noEscape : char ≠ unit '\\') (noTick : char ≠ unit '`') {i count : Nat}
    (units : ∀ k < count, src[i + k]? = some char) :
    codeSpansFrom src i = codeSpansFrom src (i + count) := by
  induction count with
  | zero => rfl
  | succ count inductionHypothesis =>
      rw [inductionHypothesis fun k less => units k (by omega),
        codeSpansFrom_plain (units count (Nat.lt_succ_self _)) noEscape noTick, Nat.add_assoc]

section Steps

variable {unicode : Unicode} {src : JsString} {i : Nat} {char : CodeUnit}

/-- A step adds to the code nodes what the scan of the source finds on the way. -/
private def Keeps (src : JsString) (i : Nat) (step : Step) : Prop :=
  step.inside = none ∧ ∀ (out : List Inline) (rejected : List RejectedUrl),
    codeValues (emit step [] out rejected).1 ++ spanValues src step.next =
      codeValues out ++ spanValues src i

private theorem keeps_text {value : JsString} {next : Nat}
    (same : codeSpansFrom src i = codeSpansFrom src next) : Keeps src i (.text value next) := by
  refine ⟨rfl, fun out rejected => ?_⟩
  show codeValues (pushText out value) ++ spanValues src next = _
  rw [codeValues_pushText, spanValues_of_eq same]

private theorem keeps_escape (here : src[i]? = some (unit '\\')) :
    Keeps src i (escapeStep src i) := by
  have skipped := codeSpansFrom_escape here
  unfold escapeStep
  cases following : src[i + 1]? with
  | none =>
      apply keeps_text
      rw [skipped, codeSpansFrom_end following, codeSpansFrom_end]
      rw [List.getElem?_eq_none_iff] at following ⊢
      omega
  | some next =>
      simp only
      split
      · refine ⟨rfl, fun out rejected => ?_⟩
        show codeValues (out ++ [.lineBreak]) ++ spanValues src (i + 2) = _
        rw [codeValues_append, spanValues_of_eq skipped]
        simp [codeValues, Inline.codeValues]
      · split
        · exact keeps_text skipped
        · rename_i inert
          -- What cannot be escaped is neither backslash nor backtick, so the scan passes it too.
          apply keeps_text
          rw [skipped]
          apply (codeSpansFrom_plain following _ _).symm
          · rintro rfl
            exact inert (by decide)
          · rintro rfl
            exact inert (by decide)

private theorem keeps_backtick (here : src[i]? = some (unit '`')) :
    Keeps src i (backtickStep src i) := by
  have positive := runLength_pos here
  have search := codeClose_eq_nextRun positive (runLength_ticks src i).2
  unfold backtickStep
  simp only
  rw [search]
  cases result : nextRun src (runLength src i (unit '`')) (i + runLength src i (unit '`')) with
  | none => exact keeps_text (codeSpansFrom_open here result)
  | some close =>
      refine ⟨rfl, fun out rejected => ?_⟩
      show codeValues (out ++ [.code _]) ++
        spanValues src (close + runLength src i (unit '`')) = _
      rw [codeValues_append]
      unfold spanValues
      rw [codeSpansFrom_closed here result]
      simp [codeValues, Inline.codeValues, CodeSpan.content]

/-- **One step.** Any step but an emphasis keeps to the scan of the source. -/
private theorem keeps_stepAt (unlinked : Unlinked src) (here : src[i]? = some char)
    (other : ∀ strong inner next, stepAt unicode src i char ≠ .emphasis strong inner next) :
    Keeps src i (stepAt unicode src i char) := by
  unfold stepAt at other ⊢
  by_cases escape : char = unit '\\'
  · rw [if_pos escape]
    rw [escape] at here
    exact keeps_escape here
  by_cases tick : char = unit '`'
  · rw [if_neg escape, if_pos tick]
    rw [tick] at here
    exact keeps_backtick here
  have next := codeSpansFrom_plain here escape tick
  rw [if_neg escape, if_neg tick, labelAndDestination_unlinked unlinked,
    labelAndDestination_unlinked unlinked] at other ⊢
  split
  · exact keeps_text next
  split
  · exact keeps_text next
  split
  · rename_i angle
    exact absurd (angle ▸ List.mem_of_getElem? here) unlinked.noAngle
  split
  · rename_i mark notBracket notAngle delimiter
    rw [if_neg mark, if_neg notBracket, if_neg notAngle, if_pos delimiter] at other
    unfold emphasisStep at other ⊢
    simp only at other ⊢
    cases result : emphasisRun unicode src i char (decide (2 ≤ runLength src i char)) with
    | none => exact keeps_text (codeSpansFrom_units escape tick (runLength_units src i char).1)
    | some close =>
        rw [result] at other
        exact absurd rfl (other _ _ _)
  split
  · split
    · refine ⟨rfl, fun out rejected => ?_⟩
      show codeValues (trimHardBreak out ++ [.lineBreak]) ++ spanValues src (i + 1) = _
      rw [codeValues_append, codeValues_trimHardBreak, spanValues_of_eq next]
      simp [codeValues, Inline.codeValues]
    · exact keeps_text next
  · exact keeps_text next

/-- What an emphasis step says of the delimiters around its inside. -/
private theorem stepAt_emphasis {strong : Bool} {inner : JsString} {next : Nat}
    (opens : stepAt unicode src i char = .emphasis strong inner next) :
    (char = unit '*' ∨ char = unit '_') ∧ strong = decide (2 ≤ runLength src i char) ∧
      ∃ close, emphasisRun unicode src i char strong = some close ∧
        next = close + markerWidth strong := by
  unfold stepAt escapeStep backtickStep emphasisStep at opens
  simp only at opens
  repeat' split at opens
  all_goals first
    | (cases opens; done)
    | skip
  rename_i delimiter _ close result
  cases opens
  exact ⟨delimiter, rfl, close, result, rfl⟩

/-- The spans from an emphasis on are those of its inside and those after it. -/
private theorem spanValues_emphasis {strong : Bool} {close : Nat} (here : src[i]? = some char)
    (opens : stepAt unicode src i char =
      .emphasis strong (slice src (i + markerWidth strong) close) (close + markerWidth strong))
    (outside : ∀ span ∈ codeSpansFrom src i, ¬ span.Holds close) :
    spanValues src i = spanValues (slice src (i + markerWidth strong) close) 0 ++
      spanValues src (close + markerWidth strong) := by
  obtain ⟨delimiter, width, found, closes, same⟩ := stepAt_emphasis opens
  have equal : found = close := by omega
  rw [equal] at closes
  obtain ⟨later, marks⟩ := emphasisRun_marks closes
  have noEscape : char ≠ unit '\\' := by
    rcases delimiter with rfl | rfl <;> decide
  have noTick : char ≠ unit '`' := by
    rcases delimiter with rfl | rfl <;> decide
  have opening : ∀ k < markerWidth strong, src[i + k]? = some char := by
    intro k less
    apply (runLength_units src i char).1 k
    have positive := runLength_pos here
    cases strong with
    | true =>
        have wide : 2 ≤ runLength src i char := of_decide_eq_true width.symm
        simp only [markerWidth, if_true] at less
        omega
    | false =>
        simp only [markerWidth, Bool.false_eq_true, if_false] at less
        omega
  have closing : ∀ k < markerWidth strong, src[close + k]? = some char := by
    intro k less
    rw [List.prefix_iff_getElem?] at marks
    have := marks k (by simpa using less)
    rwa [List.getElem_replicate, List.getElem?_drop] at this
  have positive := markerWidth_pos strong
  have opened := codeSpansFrom_units noEscape noTick opening
  have ends : src[close]? = some char := closing 0 positive
  have after : codeSpansFrom src (close + 1) = codeSpansFrom src (close + markerWidth strong) := by
    rw [← codeSpansFrom_units noEscape noTick closing, codeSpansFrom_plain ends noEscape noTick]
  rw [opened] at outside
  have split := codeSpansFrom_slice ends noEscape noTick (Nat.le_refl (i + markerWidth strong))
    later outside
  rw [Nat.sub_self, after] at split
  unfold spanValues
  rw [opened, split, List.map_append]

end Steps

/-! ### A whole run -/

/-- The code nodes from a position on are the spans of the scan from that position on. -/
private theorem codeValues_parseInlineFrom {unicode : Unicode} {src : JsString} {i : Nat}
    (closed : ClosedOutside unicode src i) (unlinked : Unlinked src) (out : List Inline)
    (rejected : List RejectedUrl) :
    codeValues (parseInlineFrom unicode src i out rejected).1 =
      codeValues out ++ spanValues src i := by
  induction closed generalizing out rejected with
  | stop ended =>
      rw [parseInlineFrom_end ended]
      unfold spanValues
      rw [codeSpansFrom_end ended]
      simp
  | pass here other _ inductionHypothesis =>
      obtain ⟨leaf, keeps⟩ := keeps_stepAt unlinked here other
      rw [parseInlineFrom_leaf here leaf, inductionHypothesis unlinked]
      exact keeps out rejected
  | @emphasis src i close char strong here opens outside _ _ insideHypothesis laterHypothesis =>
      rw [parseInlineFrom_inside here (by rw [opens]; rfl), opens]
      simp only [Step.next]
      rw [laterHypothesis unlinked, spanValues_emphasis here opens outside, ← List.append_assoc]
      congr 1
      have inside := insideHypothesis (unlinked.slice _ _) [] rejected
      generalize parseInlineFrom unicode (slice src (i + markerWidth strong) close) 0 [] rejected =
        children at inside
      rw [show codeValues [] = [] by rfl, List.nil_append] at inside
      cases strong <;> simp [emit, codeValues, Inline.codeValues, inside]

/-- **Code spans come first.** When every emphasis is closed outside the code spans that
follow its opening, the code nodes are the spans the source determines on its own. -/
theorem parseInline_codeValues {unicode : Unicode} {src : JsString} (noAngle : unit '<' ∉ src)
    (noLink : ¬ js "](" <:+: src) (closed : ClosedOutside unicode src 0)
    (rejected : List RejectedUrl) :
    codeValues (parseInline unicode src rejected).1 =
      (codeSpans src).map fun span => codeValue (span.content src) := by
  unfold parseInline
  rw [codeValues_parseInlineFrom closed ⟨noAngle, noLink⟩]
  unfold spanValues codeSpans
  rw [List.map_map]
  rfl

deriving instance DecidableEq for Step

/-- The tables of a runtime on ASCII text. -/
def asciiUnicode : Unicode := ⟨fun c => isAlpha c || isDigit c, fun s => s.map lowerAscii⟩

theorem parseInline_codeValues_example :
    codeValues (parseInline asciiUnicode (js "*a*`b`") []).1 = [js "b"] := by
  have closed : ClosedOutside asciiUnicode (js "*a*`b`") 0 := by
    have inside : ClosedOutside asciiUnicode (js "a") 0 := by
      have letter : stepAt asciiUnicode (js "a") 0 (unit 'a') = .text (js "a") 1 := by
        decide +kernel
      have here : (js "a")[0]? = some (unit 'a') := rfl
      refine .pass here (by rw [letter]; exact nofun) ?_
      rw [letter]
      exact .stop rfl
    have after : ClosedOutside asciiUnicode (js "*a*`b`") 3 := by
      have code : stepAt asciiUnicode (js "*a*`b`") 3 (unit '`') = .code (js "b") 6 := by
        decide +kernel
      have here : (js "*a*`b`")[3]? = some (unit '`') := rfl
      refine .pass here (by rw [code]; exact nofun) ?_
      rw [code]
      exact .stop rfl
    have opens : stepAt asciiUnicode (js "*a*`b`") 0 (unit '*') = .emphasis false (js "a") 3 := by
      decide +kernel
    have middle : slice (js "*a*`b`") (0 + markerWidth false) 2 = js "a" := by decide +kernel
    have here : (js "*a*`b`")[0]? = some (unit '*') := rfl
    have whole : stepAt asciiUnicode (js "*a*`b`") 0 (unit '*') =
        .emphasis false (slice (js "*a*`b`") (0 + markerWidth false) 2)
          (2 + markerWidth false) := by
      rw [opens, middle]
      rfl
    refine .emphasis here whole ?_ ?_ ?_
    · decide +kernel
    · rw [middle]
      exact inside
    · exact after
  exact (parseInline_codeValues (by decide) (by decide +kernel) closed []).trans (by decide +kernel)

/-- A delimiter inside a later code span closes an emphasis, and the span is lost. -/
theorem code_span_cut :
    ¬ ∀ (unicode : Unicode) (src : JsString) (rejected : List RejectedUrl),
      unit '<' ∉ src → ¬ js "](" <:+: src →
        codeValues (parseInline unicode src rejected).1 =
          (codeSpans src).map fun span => codeValue (span.content src) := by
  intro claimed
  have kept := claimed asciiUnicode (js "*a `b*` c") [] (by decide) (by decide +kernel)
  have lost : codeValues (parseInline asciiUnicode (js "*a `b*` c") []).1 ≠
      (codeSpans (js "*a `b*` c")).map fun span => codeValue (span.content (js "*a `b*` c")) := by
    decide +kernel
  exact lost kept

end Assaybank.Markdown
