import Assaybank.Runtime.RegExp.Syntax

/-!
Owns what a compiled pattern matches: every way a tree matches from a position on, in the
order the runtime tries them, and `test`, which asks for one from any position.

Contract: a look-around is settled by its first way alone, and an iteration that took
nothing ends a repetition, as in the language. It does not own how patterns are read.
-/

namespace Assaybank.Runtime.RegExp

/-- What matching depends on: the pattern's flags and names, and the characters matched,
which are code points with `u` and units without. -/
structure Subject where
  tables : Tables
  flags : Flags
  names : List (GroupName × Nat)
  input : List Nat

/-- A position in the input, and the spans captured on the way to it. -/
structure Place where
  index : Nat
  captured : Nat → Option (Nat × Nat)

/-- The start of a match. -/
def Place.at (index : Nat) : Place := ⟨index, fun _ => none⟩

/-- The characters of a text. -/
def characters (unicode : Bool) : JsString → List Nat
  | [] => []
  | [c] => [c.toNat]
  | c :: d :: rest =>
      if unicode && isHighSurrogate c && isLowSurrogate d then
        pairCode c d :: characters unicode rest
      else c.toNat :: characters unicode (d :: rest)

/-- What `.` refuses and a multiline anchor stands beside. -/
def isTerminatorCode (code : Nat) : Bool :=
  code == 0x0A || code == 0x0D || code == 0x2028 || code == 0x2029

/-- `[a-zA-Z0-9_]`. -/
def isBasicWord (code : Nat) : Bool :=
  decide (code < 0x80) && (isAlpha code.toUInt16 || isDigit code.toUInt16 || code == 0x5F)

section Characters

variable (subject : Subject)

/-- `Canonicalize`. -/
def Subject.canonical (code : Nat) : Nat :=
  if subject.flags.ignoreCase then subject.tables.canonicalize subject.flags.unicode code else code

/-- `WordCharacters`: with `i` and `u` also what folds into a basic one. -/
def Subject.isWord (code : Nat) : Bool :=
  isBasicWord code ||
    (subject.flags.ignoreCase && subject.flags.unicode && isBasicWord (subject.canonical code))

/-- The set of a class escape. -/
def Subject.inEscape (set : EscapeSet) (code : Nat) : Bool :=
  match set with
  | .digit => decide (code < 0x80) && isDigit code.toUInt16
  | .space => decide (code < 0x10000) && isSpace code.toUInt16
  | .word => subject.isWord code
  | .property name => (subject.tables.property name).elim false (· code)

def Subject.inItem (code : Nat) : ClassItem → Bool
  | .single other => code == other
  | .range low high => decide (low ≤ code) && decide (code ≤ high)
  | .escape set negated => subject.inEscape set code != negated

/-- Whether a set holds a character, up to case under `i`. -/
def Subject.holds (set : Nat → Bool) (code : Nat) : Bool :=
  if subject.flags.ignoreCase then
    (List.range (if subject.flags.unicode then 0x110000 else 0x10000)).any fun member =>
      set member && subject.canonical member == subject.canonical code
  else set code

/-- The place after one character of a set, in the direction of matching. -/
def Subject.consume (forward : Bool) (accepts : Nat → Bool) (place : Place) : List Place :=
  if forward then
    match subject.input[place.index]? with
    | some code => if accepts code then [{ place with index := place.index + 1 }] else []
    | none => []
  else if place.index = 0 then []
  else
    match subject.input[place.index - 1]? with
    | some code => if accepts code then [{ place with index := place.index - 1 }] else []
    | none => []

/-- `^`. -/
def Subject.atLineStart (index : Nat) : Bool :=
  index == 0 || (subject.flags.multiline && subject.input[index - 1]?.any isTerminatorCode)

/-- `$`. -/
def Subject.atLineEnd (index : Nat) : Bool :=
  index == subject.input.length ||
    (subject.flags.multiline && subject.input[index]?.any isTerminatorCode)

/-- `\b`. -/
def Subject.atWordBoundary (index : Nat) : Bool :=
  let before := index != 0 && subject.input[index - 1]?.any subject.isWord
  let after := subject.input[index]?.any subject.isWord
  before != after

/-- The place after what a group captured stands once more. -/
def Subject.repeatCapture (forward : Bool) (span : Option (Nat × Nat)) (place : Place) :
    List Place :=
  match span with
  | none => [place]
  | some (start, stop) =>
      let text := (subject.input.take stop).drop start
      let same := fun (other : List Nat) =>
        other.map subject.canonical == text.map subject.canonical
      if forward then
        if same ((subject.input.drop place.index).take text.length) then
          [{ place with index := place.index + text.length }]
        else []
      else if text.length ≤ place.index ∧
          same ((subject.input.drop (place.index - text.length)).take text.length) then
        [{ place with index := place.index - text.length }]
      else []

end Characters

/-- The groups a tree captures. -/
def Node.captures : Node → List Nat
  | .seq first second => first.captures ++ second.captures
  | .alt first second => first.captures ++ second.captures
  | .group inner => inner.captures
  | .capture index inner => index :: inner.captures
  | .look _ _ inner => inner.captures
  | .repetition inner _ _ _ => inner.captures
  | _ => []

/-- Forgets what the given groups captured. -/
def Place.forget (place : Place) (groups : List Nat) : Place :=
  { place with captured := fun group => if group ∈ groups then none else place.captured group }

/-- `RepeatMatcher`: the ways of an iteration, `ways`, between `min` and `max` times. An
iteration beyond `min` that takes nothing fails. `fuel` bounds the iterations left. -/
def iterate (ways : Place → List Place) (groups : List Nat) (greedy : Bool) :
    Nat → Nat → Option Nat → Place → List Place
  | 0, _, _, _ => []
  | fuel + 1, min, max, place =>
      if max = some 0 then [place]
      else
        let more := (ways (place.forget groups)).flatMap fun next =>
          if min = 0 ∧ next.index = place.index then []
          else iterate ways groups greedy fuel (min - 1) (max.map (· - 1)) next
        if min ≠ 0 then more
        else if greedy then more ++ [place]
        else place :: more

/-- Every way a tree matches from a place on, in the order the runtime tries them. -/
def Node.ways (subject : Subject) : Node → Bool → Place → List Place
  | .empty, _, place => [place]
  | .seq first second, forward, place =>
      if forward then (first.ways subject forward place).flatMap (second.ways subject forward)
      else (second.ways subject forward place).flatMap (first.ways subject forward)
  | .alt first second, forward, place =>
      first.ways subject forward place ++ second.ways subject forward place
  | .char code, forward, place =>
      subject.consume forward (fun other => subject.canonical other == subject.canonical code)
        place
  | .any, forward, place =>
      subject.consume forward
        (subject.holds fun code => subject.flags.dotAll || !isTerminatorCode code) place
  | .charClass items negated, forward, place =>
      subject.consume forward
        (fun code => subject.holds (fun member => items.any (subject.inItem member)) code != negated)
        place
  | .lineStart, _, place => if subject.atLineStart place.index then [place] else []
  | .lineEnd, _, place => if subject.atLineEnd place.index then [place] else []
  | .wordBoundary negated, _, place =>
      if subject.atWordBoundary place.index != negated then [place] else []
  | .backreference index, forward, place =>
      subject.repeatCapture forward (place.captured index) place
  | .namedReference name, forward, place =>
      subject.repeatCapture forward
        ((subject.names.find? (·.1 == name)).bind fun found => place.captured found.2) place
  | .group inner, forward, place => inner.ways subject forward place
  | .capture index inner, forward, place =>
      (inner.ways subject forward place).map fun next =>
        let span := if forward then (place.index, next.index) else (next.index, place.index)
        { next with captured := fun group =>
            if group = index then some span else next.captured group }
  | .look behind negated inner, _, place =>
      match inner.ways subject (!behind) place with
      | [] => if negated then [place] else []
      | first :: _ => if negated then [] else [{ first with index := place.index }]
  | .repetition inner min max greedy, forward, place =>
      iterate (inner.ways subject forward) inner.captures greedy (min + subject.input.length + 2)
        min max place

/-! ### Progress -/

section Progress

variable {subject : Subject} {forward : Bool} {place way : Place}

/-- A way ends inside the input and not behind the place it started from. -/
def Advances (subject : Subject) (forward : Bool) (place way : Place) : Prop :=
  way.index ≤ subject.input.length ∧
    if forward then place.index ≤ way.index else way.index ≤ place.index

private theorem advances_refl (inside : place.index ≤ subject.input.length) :
    Advances subject forward place place := by
  refine ⟨inside, ?_⟩
  split
  · exact Nat.le_refl _
  · exact Nat.le_refl _

private theorem Advances.trans {middle : Place} (first : Advances subject forward place middle)
    (second : Advances subject forward middle way) : Advances subject forward place way := by
  refine ⟨second.1, ?_⟩
  have before := first.2
  have after := second.2
  split
  · rename_i ahead
    rw [if_pos ahead] at before after
    exact Nat.le_trans before after
  · rename_i back
    rw [if_neg back] at before after
    exact Nat.le_trans after before

private theorem consume_advances {accepts : Nat → Bool}
    (inside : place.index ≤ subject.input.length)
    (found : way ∈ subject.consume forward accepts place) :
    Advances subject forward place way := by
  unfold Subject.consume at found
  split at found
  · rename_i ahead
    split at found
    · rename_i code here
      split at found
      · rw [List.mem_singleton.mp found]
        have bound := (List.getElem?_eq_some_iff.mp here).1
        refine ⟨bound, ?_⟩
        rw [if_pos ahead]
        exact Nat.le_succ _
      · cases found
    · cases found
  · rename_i back
    split at found
    · cases found
    · split at found
      · split at found
        · rw [List.mem_singleton.mp found]
          refine ⟨Nat.le_trans (Nat.sub_le _ _) inside, ?_⟩
          rw [if_neg back]
          exact Nat.sub_le _ _
        · cases found
      · cases found

private theorem repeatCapture_advances {span : Option (Nat × Nat)}
    (inside : place.index ≤ subject.input.length)
    (found : way ∈ subject.repeatCapture forward span place) :
    Advances subject forward place way := by
  unfold Subject.repeatCapture at found
  cases span with
  | none =>
      rw [List.mem_singleton.mp found]
      exact advances_refl inside
  | some span =>
      obtain ⟨start, stop⟩ := span
      simp only at found
      generalize (subject.input.take stop).drop start = text at found
      split at found
      · rename_i ahead
        split at found
        · rename_i same
          rw [List.mem_singleton.mp found]
          have lengths := congrArg List.length (beq_iff_eq.mp same)
          rw [List.length_map, List.length_map, List.length_take, List.length_drop] at lengths
          refine ⟨?_, ?_⟩
          · show place.index + text.length ≤ subject.input.length
            omega
          · rw [if_pos ahead]
            exact Nat.le_add_right _ _
        · cases found
      · rename_i back
        split at found
        · rw [List.mem_singleton.mp found]
          refine ⟨Nat.le_trans (Nat.sub_le _ _) inside, ?_⟩
          rw [if_neg back]
          exact Nat.sub_le _ _
        · cases found

private theorem iterate_advances {ways : Place → List Place} {groups : List Nat} {greedy : Bool}
    (step : ∀ {place way : Place}, place.index ≤ subject.input.length → way ∈ ways place →
      Advances subject forward place way)
    {fuel min : Nat} {max : Option Nat} (inside : place.index ≤ subject.input.length)
    (found : way ∈ iterate ways groups greedy fuel min max place) :
    Advances subject forward place way := by
  induction fuel generalizing min max place with
  | zero => cases found
  | succ fuel inductionHypothesis =>
      have later : ∀ {bound : Option Nat}, way ∈ ((ways (place.forget groups)).flatMap fun next =>
          if min = 0 ∧ next.index = place.index then []
          else iterate ways groups greedy fuel (min - 1) bound next) →
          Advances subject forward place way := by
        intro bound member
        obtain ⟨next, taken, rest⟩ := List.mem_flatMap.mp member
        have first : Advances subject forward (place.forget groups) next := step inside taken
        split at rest
        · cases rest
        · exact first.trans (inductionHypothesis first.1 rest)
      rw [iterate] at found
      split at found
      · rw [List.mem_singleton.mp found]
        exact advances_refl inside
      · simp only at found
        split at found
        · exact later found
        · split at found
          · rcases List.mem_append.mp found with more | stop
            · exact later more
            · rw [List.mem_singleton.mp stop]
              exact advances_refl inside
          · rcases List.mem_cons.mp found with rfl | more
            · exact advances_refl inside
            · exact later more

/-- Matching goes only in its direction and stays inside the input. -/
theorem ways_advance {node : Node} (inside : place.index ≤ subject.input.length)
    (found : way ∈ node.ways subject forward place) : Advances subject forward place way := by
  induction node generalizing forward place way with
  | empty =>
      rw [List.mem_singleton.mp found]
      exact advances_refl inside
  | seq first second firstHypothesis secondHypothesis =>
      rw [Node.ways] at found
      split at found
      · obtain ⟨middle, before, after⟩ := List.mem_flatMap.mp found
        have reached := firstHypothesis inside before
        exact reached.trans (secondHypothesis reached.1 after)
      · obtain ⟨middle, before, after⟩ := List.mem_flatMap.mp found
        have reached := secondHypothesis inside before
        exact reached.trans (firstHypothesis reached.1 after)
  | alt first second firstHypothesis secondHypothesis =>
      rcases List.mem_append.mp found with found | found
      · exact firstHypothesis inside found
      · exact secondHypothesis inside found
  | char code => exact consume_advances inside found
  | any => exact consume_advances inside found
  | charClass items negated => exact consume_advances inside found
  | lineStart =>
      rw [Node.ways, List.mem_ite_nil_right, List.mem_singleton] at found
      rw [found.2]
      exact advances_refl inside
  | lineEnd =>
      rw [Node.ways, List.mem_ite_nil_right, List.mem_singleton] at found
      rw [found.2]
      exact advances_refl inside
  | wordBoundary negated =>
      rw [Node.ways, List.mem_ite_nil_right, List.mem_singleton] at found
      rw [found.2]
      exact advances_refl inside
  | backreference index => exact repeatCapture_advances inside found
  | namedReference name => exact repeatCapture_advances inside found
  | group inner innerHypothesis => exact innerHypothesis inside found
  | capture index inner innerHypothesis =>
      obtain ⟨next, reached, rfl⟩ := List.mem_map.mp found
      have here : Advances subject forward place next := innerHypothesis inside reached
      exact ⟨here.1, here.2⟩
  | look behind negated inner _ =>
      rw [Node.ways] at found
      split at found
      · split at found
        · rw [List.mem_singleton.mp found]
          exact advances_refl inside
        · cases found
      · split at found
        · cases found
        · rw [List.mem_singleton.mp found]
          exact advances_refl inside
  | repetition inner min max greedy innerHypothesis =>
      exact iterate_advances (fun here taken => innerHypothesis here taken) inside found

/-- How far matching can still go. -/
private def left (subject : Subject) (forward : Bool) (place : Place) : Nat :=
  if forward then subject.input.length - place.index else place.index

/-- Fuel beyond the iterations a repetition can make changes nothing. -/
private theorem iterate_enough {ways : Place → List Place} {groups : List Nat} {greedy : Bool}
    (step : ∀ {place way : Place}, place.index ≤ subject.input.length → way ∈ ways place →
      Advances subject forward place way)
    {fuel more min : Nat} {max : Option Nat} (inside : place.index ≤ subject.input.length)
    (enough : min + left subject forward place < fuel)
    (enoughMore : min + left subject forward place < more) :
    iterate ways groups greedy fuel min max place =
      iterate ways groups greedy more min max place := by
  induction fuel generalizing more min max place with
  | zero => exact absurd enough (Nat.not_lt_zero _)
  | succ fuel inductionHypothesis =>
      cases more with
      | zero => exact absurd enoughMore (Nat.not_lt_zero _)
      | succ more =>
          have later : ((ways (place.forget groups)).flatMap fun next =>
              if min = 0 ∧ next.index = place.index then []
              else iterate ways groups greedy fuel (min - 1) (max.map (· - 1)) next) =
              (ways (place.forget groups)).flatMap fun next =>
                if min = 0 ∧ next.index = place.index then []
                else iterate ways groups greedy more (min - 1) (max.map (· - 1)) next := by
            apply List.flatMap_congr
            intro next taken
            have fromHere : Advances subject forward (place.forget groups) next :=
              step inside taken
            have reached : Advances subject forward place next := fromHere
            split
            · rfl
            · rename_i moves
              have shorter : min - 1 + left subject forward next <
                  min + left subject forward place := by
                obtain ⟨within, direction⟩ := reached
                unfold left
                cases forward with
                | true =>
                    simp only [if_true] at direction ⊢
                    omega
                | false =>
                    simp only [Bool.false_eq_true, if_false] at direction ⊢
                    omega
              exact inductionHypothesis reached.1 (by omega) (by omega)
          rw [iterate, iterate, later]

/-- **Repetition.** The fuel of a repetition is always enough: its ways are those of
`RepeatMatcher`, which knows no fuel. -/
theorem ways_repetition {inner : Node} {min : Nat} {max : Option Nat} {greedy : Bool}
    (inside : place.index ≤ subject.input.length) :
    (Node.repetition inner min max greedy).ways subject forward place =
      if max = some 0 then [place]
      else
        let more := (inner.ways subject forward (place.forget inner.captures)).flatMap fun next =>
          if min = 0 ∧ next.index = place.index then []
          else (Node.repetition inner (min - 1) (max.map (· - 1)) greedy).ways subject forward next
        if min ≠ 0 then more else if greedy then more ++ [place] else place :: more := by
  have room : ∀ {other : Place}, other.index ≤ subject.input.length →
      left subject forward other ≤ subject.input.length := by
    intro other within
    unfold left
    split
    · exact Nat.sub_le _ _
    · exact within
  have later : ((inner.ways subject forward (place.forget inner.captures)).flatMap fun next =>
      if min = 0 ∧ next.index = place.index then []
      else iterate (inner.ways subject forward) inner.captures greedy
        (min + subject.input.length + 1) (min - 1) (max.map (· - 1)) next) =
      (inner.ways subject forward (place.forget inner.captures)).flatMap fun next =>
        if min = 0 ∧ next.index = place.index then []
        else (Node.repetition inner (min - 1) (max.map (· - 1)) greedy).ways subject forward next := by
    apply List.flatMap_congr
    intro next taken
    have fromHere : Advances subject forward (place.forget inner.captures) next :=
      ways_advance inside taken
    have reached : Advances subject forward place next := fromHere
    have bound := room reached.1
    split
    · rfl
    · exact iterate_enough (fun here found => ways_advance here found) reached.1 (by omega)
        (by omega)
  rw [Node.ways, iterate, later]

end Progress

/-- The subject a text is to a compiled pattern. -/
def Compiled.subject (compiled : Compiled) (tables : Tables) (flags : Flags) (text : JsString) :
    Subject :=
  ⟨tables, flags, compiled.names, characters flags.unicode text⟩

/-- `test`: some way from some position on. -/
def Compiled.test (compiled : Compiled) (tables : Tables) (flags : Flags) (text : JsString) :
    Bool :=
  let subject := compiled.subject tables flags text
  (List.range (subject.input.length + 1)).any fun start =>
    !(compiled.node.ways subject true (.at start)).isEmpty

/-- The pattern matches a text from its first to its last character. -/
def Compiled.MatchesWhole (compiled : Compiled) (tables : Tables) (flags : Flags)
    (text : JsString) : Prop :=
  let subject := compiled.subject tables flags text
  ∃ way ∈ compiled.node.ways subject true (.at 0), way.index = subject.input.length

instance (compiled : Compiled) (tables : Tables) (flags : Flags) (text : JsString) :
    Decidable (compiled.MatchesWhole tables flags text) :=
  inferInstanceAs (Decidable (∃ way ∈ compiled.node.ways (compiled.subject tables flags text) true
    (.at 0), way.index = (compiled.subject tables flags text).input.length))

/-- The pattern matches a text from a start of a line to an end of a line, which with `m` may
be those of any of its lines. -/
def Compiled.MatchesLines (compiled : Compiled) (tables : Tables) (flags : Flags)
    (text : JsString) : Prop :=
  let subject := compiled.subject tables flags text
  ∃ start ≤ subject.input.length, subject.atLineStart start = true ∧
    ∃ way ∈ compiled.node.ways subject true (.at start), subject.atLineEnd way.index = true

end Assaybank.Runtime.RegExp
