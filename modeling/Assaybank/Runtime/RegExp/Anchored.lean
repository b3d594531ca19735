import Assaybank.Runtime.RegExp.Matching

/-!
Owns patterns wrapped as `^(?:…)$`: how a pattern that compiles on its own is read between
the group's parentheses, and what the wrapped pattern matches.

Contract: a reading step never looks past a `)` it does not take, so a pattern is read the
same before the closing parenthesis as at its end. Under `m` the anchors stand at lines,
and what is matched may be less than the whole text.
-/

namespace Assaybank.Runtime.RegExp

/-- What was read, with a longer text after it. -/
private def extend {α : Type} (after : JsString) (found : α × JsString) : α × JsString :=
  (found.1, found.2 ++ after)

private theorem ite_map {α β : Type} {p : Prop} [Decidable p] {f : α → β} {x y : Option α}
    {x' y' : Option β} (yes : p → x' = x.map f) (no : ¬ p → y' = y.map f) :
    (if p then x' else y') = (if p then x else y).map f := by
  split
  · rename_i holds
    exact yes holds
  · rename_i fails
    exact no fails

/-! ### Looking ahead of a closing parenthesis -/

section Ahead

variable {s t : JsString}

private theorem head?_ahead {c : CodeUnit} (other : c ≠ unit ')') :
    (s ++ unit ')' :: t).head? = some c ↔ s.head? = some c := by
  cases s with
  | nil =>
      constructor
      · intro same
        exact absurd (Option.some.inj same).symm other
      · exact nofun
  | cons d rest => rfl

private theorem any_head?_ahead {p : CodeUnit → Bool} (outside : p (unit ')') = false) :
    (s ++ unit ')' :: t).head?.any p = s.head?.any p := by
  cases s with
  | nil => exact outside
  | cons d rest => rfl

private theorem takeWhile_ahead {p : CodeUnit → Bool} (outside : p (unit ')') = false) :
    (s ++ unit ')' :: t).takeWhile p = s.takeWhile p := by
  induction s with
  | nil => exact List.takeWhile_cons_of_neg (by simp [outside])
  | cons d rest inductionHypothesis =>
      rw [List.cons_append, List.takeWhile_cons, List.takeWhile_cons, inductionHypothesis]

private theorem takeWhile_closed {p : CodeUnit → Bool} {c : CodeUnit} {after : JsString}
    (stops : s[(s.takeWhile p).length]? = some c) : (s ++ after).takeWhile p = s.takeWhile p := by
  induction s with
  | nil => cases stops
  | cons d rest inductionHypothesis =>
      rw [List.cons_append, List.takeWhile_cons, List.takeWhile_cons]
      rw [List.takeWhile_cons] at stops
      split at stops
      · rename_i kept
        rw [if_pos kept, if_pos kept, inductionHypothesis stops]
      · rename_i stop
        rw [if_neg stop, if_neg stop]

private theorem length_takeWhile_le (p : CodeUnit → Bool) (s : JsString) :
    (s.takeWhile p).length ≤ s.length :=
  (List.takeWhile_sublist p).length_le

private theorem tail_ahead {c : CodeUnit} (starts : s.head? = some c) (after : JsString) :
    (s ++ after).tail = s.tail ++ after := by
  cases s with
  | nil => cases starts
  | cons d rest => rfl

private theorem drop_ahead {count : Nat} (inside : count ≤ s.length) (after : JsString) :
    (s ++ after).drop count = s.drop count ++ after := List.drop_append_of_le_length inside

private theorem getElem?_ahead {count : Nat} {c : CodeUnit} (inside : count ≤ s.length)
    (other : c ≠ unit ')') : (s ++ unit ')' :: t)[count]? = some c ↔ s[count]? = some c := by
  rcases Nat.lt_or_eq_of_le inside with less | rfl
  · rw [List.getElem?_append_left less]
  · rw [List.getElem?_append_right (Nat.le_refl _), Nat.sub_self,
      List.getElem?_eq_none (Nat.le_refl _)]
    constructor
    · intro same
      exact absurd (Option.some.inj same).symm other
    · exact nofun

private theorem isPrefixOf_ahead {word : JsString} (free : unit ')' ∉ word) :
    word.isPrefixOf (s ++ unit ')' :: t) = word.isPrefixOf s := by
  induction word generalizing s with
  | nil => cases s <;> rfl
  | cons c word inductionHypothesis =>
      cases s with
      | nil =>
          have differs : (c == unit ')') = false := by
            rw [beq_eq_false_iff_ne]
            exact fun same => free (same ▸ List.mem_cons_self)
          show (c == unit ')' && _) = false
          rw [differs, Bool.false_and]
      | cons d rest =>
          show (c == d && word.isPrefixOf (rest ++ unit ')' :: t)) = (c == d && word.isPrefixOf rest)
          rw [inductionHypothesis fun member => free (List.mem_cons_of_mem _ member)]

end Ahead

/-! ### Escapes -/

section Escapes

variable {s t : JsString}

private theorem hexDigits_ahead (count : Nat) :
    hexDigits count (s ++ unit ')' :: t) = (hexDigits count s).map (extend (unit ')' :: t)) := by
  unfold hexDigits
  rcases Nat.lt_or_ge s.length count with short | long
  · have missing : ¬ ((s ++ unit ')' :: t).take count).all isHexDigit := by
      intro all
      have member : unit ')' ∈ (s ++ unit ')' :: t).take count := by
        apply List.mem_of_getElem? (i := s.length)
        rw [List.getElem?_take_of_lt short]
        simp
      exact absurd (List.all_eq_true.mp all _ member) (by decide)
    have shorter : ¬ (s.take count).length = count := by
      rw [List.length_take]
      omega
    rw [if_neg fun both => missing both.2, if_neg fun both => shorter both.1]
    rfl
  · rw [List.take_append_of_le_length long, drop_ahead long]
    split
    · rfl
    · rfl

private theorem bracedCode_ahead (unicode : Bool) (missing : hexDigits 4 s = none) :
    unicodeEscape unicode (s ++ unit ')' :: t) =
      (unicodeEscape unicode s).map (extend (unit ')' :: t)) := by
  have missingAhead : hexDigits 4 (s ++ unit ')' :: t) = none := by
    rw [hexDigits_ahead, missing]
    rfl
  have sameHead : (s ++ unit ')' :: t).head? = some (unit '\x7b') ↔
      s.head? = some (unit '\x7b') := head?_ahead (by decide)
  unfold unicodeEscape
  rw [missing, missingAhead]
  simp only
  by_cases opens : s.head? = some (unit '\x7b')
  · have opensAhead := sameHead.mpr opens
    rw [tail_ahead opens, takeWhile_ahead (by decide)]
    have inside := length_takeWhile_le isHexDigit s.tail
    generalize s.tail.takeWhile isHexDigit = digits at inside
    have closes : (s.tail ++ unit ')' :: t)[digits.length]? = some (unit '\x7d') ↔
        s.tail[digits.length]? = some (unit '\x7d') := getElem?_ahead inside (by decide)
    simp only [opens, opensAhead, closes]
    split
    · split
      · rename_i shape
        have within := (List.getElem?_eq_some_iff.mp shape.2.1).1
        rw [drop_ahead (by omega)]
        rfl
      · rfl
    · rfl
  · have closedAhead : ¬ (s ++ unit ')' :: t).head? = some (unit '\x7b') :=
      fun ahead => opens (sameHead.mp ahead)
    simp only [opens, closedAhead, decide_false, Bool.and_false, Bool.false_eq_true, if_false,
      Option.map_none]

private theorem unicodeEscape_ahead (unicode : Bool) :
    unicodeEscape unicode (s ++ unit ')' :: t) =
      (unicodeEscape unicode s).map (extend (unit ')' :: t)) := by
  cases first : hexDigits 4 s with
  | none => exact bracedCode_ahead unicode first
  | some found =>
      obtain ⟨code, rest⟩ := found
      have firstAhead : hexDigits 4 (s ++ unit ')' :: t) = some (code, rest ++ unit ')' :: t) := by
        rw [hexDigits_ahead, first]
        rfl
      unfold unicodeEscape
      rw [first, firstAhead]
      simp only
      rw [isPrefixOf_ahead (by decide)]
      split
      · rename_i pair
        simp only [Bool.and_eq_true] at pair
        have long : 2 ≤ rest.length := (List.isPrefixOf_iff_prefix.mp pair.2).length_le
        rw [drop_ahead long, hexDigits_ahead]
        cases second : hexDigits 4 (rest.drop 2) with
        | none => rfl
        | some low =>
            simp only [Option.map_some, extend]
            split
            · rfl
            · rfl
      · rfl

private theorem legacyOctal_ahead (c : CodeUnit) :
    legacyOctal (c :: (s ++ unit ')' :: t)) =
      extend (unit ')' :: t) (legacyOctal (c :: s)) := by
  have digits : (c :: (s ++ unit ')' :: t)).takeWhile isOctalDigit =
      (c :: s).takeWhile isOctalDigit := takeWhile_ahead (s := c :: s) (by decide)
  unfold legacyOctal
  simp only [digits, List.head?_cons]
  have inside : ((c :: s).takeWhile isOctalDigit |>.take
      (if (some c).any (· ≤ unit '3') then 3 else 2)).length ≤ (c :: s).length :=
    Nat.le_trans (List.length_take_le' _ _) (length_takeWhile_le _ _)
  exact Prod.ext rfl (drop_ahead inside (unit ')' :: t))

private theorem sourceCharacter_ahead (unicode : Bool) (c : CodeUnit) :
    sourceCharacter unicode c (s ++ unit ')' :: t) =
      extend (unit ')' :: t) (sourceCharacter unicode c s) := by
  cases s with
  | nil =>
      have single : isLowSurrogate (unit ')') = false := by decide
      simp [sourceCharacter, extend, single]
  | cons d rest =>
      simp only [sourceCharacter, List.cons_append]
      split
      · rfl
      · rfl

private theorem characterEscape_ahead (context : Context) (c : CodeUnit) :
    characterEscape context c (s ++ unit ')' :: t) =
      (characterEscape context c s).map (extend (unit ')' :: t)) := by
  unfold characterEscape
  rw [any_head?_ahead (by decide), any_head?_ahead (by decide), hexDigits_ahead,
    unicodeEscape_ahead, legacyOctal_ahead, Option.isSome_map, Option.isSome_map]
  refine ite_map (fun _ => rfl) fun _ => ?_
  refine ite_map (fun _ => rfl) fun _ => ?_
  refine ite_map (fun _ => rfl) fun _ => ?_
  refine ite_map (fun _ => rfl) fun _ => ?_
  refine ite_map (fun _ => rfl) fun _ => ?_
  refine ite_map (fun _ => ?_) fun _ => ?_
  · refine ite_map (fun letter => ?_) fun _ => ite_map (fun _ => rfl) fun _ => rfl
    cases s with
    | nil => cases letter
    | cons d rest => rfl
  refine ite_map (fun _ => ?_) fun _ => ?_
  · exact ite_map (fun _ => rfl) fun _ => rfl
  refine ite_map (fun _ => rfl) fun _ => ?_
  refine ite_map (fun _ => rfl) fun _ => ?_
  refine ite_map (fun _ => rfl) fun _ => ?_
  refine ite_map (fun _ => ?_) fun _ => ?_
  · exact ite_map (fun _ => rfl) fun _ => rfl
  exact ite_map (fun _ => rfl) fun _ => rfl

/-- What stands in delimiters is read the same whatever follows. -/
private theorem delimited_ahead {opening closing : CodeUnit} {inner rest : JsString}
    (found : delimited opening closing s = some (inner, rest)) (after : JsString) :
    delimited opening closing (s ++ after) = some (inner, rest ++ after) := by
  unfold delimited at found ⊢
  simp only at found ⊢
  split at found
  · rename_i shape
    cases found
    obtain ⟨opens, closes⟩ := shape
    have same : (s ++ after).tail.takeWhile (· != closing) =
        s.tail.takeWhile (· != closing) := by
      rw [tail_ahead opens]
      exact takeWhile_closed closes
    have within := (List.getElem?_eq_some_iff.mp closes).1
    rw [same, if_pos, tail_ahead opens, drop_ahead (by omega)]
    refine ⟨?_, ?_⟩
    · rw [List.head?_append, opens]
      rfl
    · rw [tail_ahead opens, List.getElem?_append_left within, closes]
  · cases found

private theorem classEscape_ahead {context : Context} {c : CodeUnit}
    {found : (EscapeSet × Bool) × JsString}
    (read : classEscape context c s = some (some found)) (after : JsString) :
    classEscape context c (s ++ after) = some (some (extend after found)) := by
  unfold classEscape at read ⊢
  cases simple : simpleSet c with
  | some set =>
      simp only [simple] at read ⊢
      cases read
      rfl
  | none =>
      simp only [simple] at read ⊢
      split at read
      · rename_i property
        rw [if_pos property]
        split at read
        · rename_i name rest inside
          rw [delimited_ahead inside]
          simp only
          split at read
          · rename_i known
            rw [if_pos known]
            cases read
            rfl
          · cases read
        · cases read
      · cases read

private theorem classEscape_none_ahead {context : Context} {c : CodeUnit}
    (read : classEscape context c s = none) (after : JsString) :
    classEscape context c (s ++ after) = none := by
  unfold classEscape at read ⊢
  cases simple : simpleSet c with
  | some set =>
      simp only [simple] at read
      cases read
  | none =>
      simp only [simple] at read ⊢
      split at read
      · split at read
        · split at read
          · cases read
          · cases read
        · cases read
      · rename_i other
        rw [if_neg other]

private theorem groupName_ahead {tables : Tables} {found : GroupName × JsString}
    (read : groupName tables s = some found) (after : JsString) :
    groupName tables (s ++ after) = some (extend after found) := by
  unfold groupName at read ⊢
  split at read
  · cases read
  · rename_i source rest inside
    rw [delimited_ahead inside]
    simp only
    split at read
    · cases read
    · split at read
      · rename_i valid
        rw [if_pos valid]
        cases read
        rfl
      · cases read

end Escapes

/-! ### Tokens -/

section Tokens

variable {s t : JsString}

private theorem bracedBounds_ahead :
    bracedBounds (s ++ unit ')' :: t) = (bracedBounds s).map (extend (unit ')' :: t)) := by
  by_cases opens : s.head? = some (unit '\x7b')
  · have opensAhead : (s ++ unit ')' :: t).head? = some (unit '\x7b') :=
      (head?_ahead (by decide)).mpr opens
    unfold bracedBounds
    simp only
    rw [tail_ahead opens, takeWhile_ahead (by decide)]
    have inside := length_takeWhile_le isDigit s.tail
    generalize s.tail.takeWhile isDigit = low at inside
    rw [drop_ahead inside]
    generalize s.tail.drop low.length = after
    simp only [opens, opensAhead]
    refine ite_map (fun _ => ?_) fun _ => rfl
    have brace : (after ++ unit ')' :: t).head? = some (unit '\x7d') ↔
        after.head? = some (unit '\x7d') := head?_ahead (by decide)
    have comma : (after ++ unit ')' :: t).head? = some (unit ',') ↔
        after.head? = some (unit ',') := head?_ahead (by decide)
    simp only [brace, comma]
    refine ite_map (fun closes => ?_) fun _ => ?_
    · rw [tail_ahead closes]
      rfl
    refine ite_map (fun separates => ?_) fun _ => rfl
    rw [tail_ahead separates, takeWhile_ahead (by decide)]
    have insideHigh := length_takeWhile_le isDigit after.tail
    generalize after.tail.takeWhile isDigit = high at insideHigh
    rw [drop_ahead insideHigh]
    generalize after.tail.drop high.length = last
    have closing : (last ++ unit ')' :: t).head? = some (unit '\x7d') ↔
        last.head? = some (unit '\x7d') := head?_ahead (by decide)
    simp only [closing]
    refine ite_map (fun closes => ?_) fun _ => rfl
    rw [tail_ahead closes]
    rfl
  · have closedAhead : ¬ (s ++ unit ')' :: t).head? = some (unit '\x7b') :=
      fun ahead => opens ((head?_ahead (by decide)).mp ahead)
    simp only [bracedBounds, opens, closedAhead, false_and, if_false, Option.map_none]

private theorem quantifierBounds_ahead :
    quantifierBounds (s ++ unit ')' :: t) = (quantifierBounds s).map (extend (unit ')' :: t)) := by
  have star : (s ++ unit ')' :: t).head? = some (unit '*') ↔ s.head? = some (unit '*') :=
    head?_ahead (by decide)
  have plus : (s ++ unit ')' :: t).head? = some (unit '+') ↔ s.head? = some (unit '+') :=
    head?_ahead (by decide)
  have query : (s ++ unit ')' :: t).head? = some (unit '?') ↔ s.head? = some (unit '?') :=
    head?_ahead (by decide)
  unfold quantifierBounds
  simp only [star, plus, query]
  refine ite_map (fun starts => ?_) fun _ => ?_
  · rw [tail_ahead starts]
    rfl
  refine ite_map (fun starts => ?_) fun _ => ?_
  · rw [tail_ahead starts]
    rfl
  refine ite_map (fun starts => ?_) fun _ => ?_
  · rw [tail_ahead starts]
    rfl
  exact bracedBounds_ahead

private theorem groupStart_ahead {tables : Tables} {found : GroupStart × JsString}
    (read : groupStart tables s = some found) :
    groupStart tables (s ++ unit ')' :: t) = some (extend (unit ')' :: t) found) := by
  have query : (s ++ unit ')' :: t).head? = some (unit '?') ↔ s.head? = some (unit '?') :=
    head?_ahead (by decide)
  unfold groupStart at read ⊢
  simp only [query] at read ⊢
  by_cases marked : s.head? = some (unit '?')
  · rw [if_pos marked] at read ⊢
    rw [tail_ahead marked]
    generalize s.tail = mark at read
    have colon : (mark ++ unit ')' :: t).head? = some (unit ':') ↔
        mark.head? = some (unit ':') := head?_ahead (by decide)
    have equal : (mark ++ unit ')' :: t).head? = some (unit '=') ↔
        mark.head? = some (unit '=') := head?_ahead (by decide)
    have bang : (mark ++ unit ')' :: t).head? = some (unit '!') ↔
        mark.head? = some (unit '!') := head?_ahead (by decide)
    have behind : (js "<=").isPrefixOf (mark ++ unit ')' :: t) = (js "<=").isPrefixOf mark :=
      isPrefixOf_ahead (by decide)
    have notBehind : (js "<!").isPrefixOf (mark ++ unit ')' :: t) = (js "<!").isPrefixOf mark :=
      isPrefixOf_ahead (by decide)
    simp only [colon, equal, bang, behind, notBehind]
    split at read
    · rename_i starts
      cases read
      rw [if_pos starts, tail_ahead starts]
      rfl
    rename_i notColon
    rw [if_neg notColon]
    split at read
    · rename_i starts
      cases read
      rw [if_pos starts, tail_ahead starts]
      rfl
    rename_i notEqual
    rw [if_neg notEqual]
    split at read
    · rename_i starts
      cases read
      rw [if_pos starts, tail_ahead starts]
      rfl
    rename_i notBang
    rw [if_neg notBang]
    split at read
    · rename_i starts
      cases read
      have long : 2 ≤ mark.length := (List.isPrefixOf_iff_prefix.mp starts).length_le
      rw [if_pos starts, drop_ahead long]
      rfl
    rename_i notLess
    rw [if_neg notLess]
    split at read
    · rename_i starts
      cases read
      have long : 2 ≤ mark.length := (List.isPrefixOf_iff_prefix.mp starts).length_le
      rw [if_pos starts, drop_ahead long]
      rfl
    rename_i notLessBang
    rw [if_neg notLessBang]
    obtain ⟨named, given, rfl⟩ := Option.map_eq_some_iff.mp read
    rw [groupName_ahead given]
    rfl
  · rw [if_neg marked] at read ⊢
    cases read
    rfl

private theorem escapeToken_ahead {context : Context} {c : CodeUnit} {found : Token × JsString}
    (read : escapeToken context c s = some found) :
    escapeToken context c (s ++ unit ')' :: t) = some (extend (unit ')' :: t) found) := by
  have digits : (c :: (s ++ unit ')' :: t)).takeWhile isDigit = (c :: s).takeWhile isDigit :=
    takeWhile_ahead (s := c :: s) (by decide)
  unfold escapeToken at read ⊢
  split at read
  · rename_i boundary
    cases read
    rw [if_pos boundary]
    rfl
  rename_i notBoundary
  rw [if_neg notBoundary]
  split at read
  · rename_i inside
    cases read
    rw [if_pos inside]
    rfl
  rename_i notInside
  rw [if_neg notInside]
  cases set : classEscape context c s with
  | some refused =>
      rw [set] at read
      obtain ⟨known, rfl, rfl⟩ := Option.map_eq_some_iff.mp read
      rw [classEscape_ahead set]
      rfl
  | none =>
      simp only [set] at read
      rw [classEscape_none_ahead set]
      simp only [digits]
      have inside : ((c :: s).takeWhile isDigit).length ≤ (c :: s).length :=
        length_takeWhile_le isDigit _
      generalize (c :: s).takeWhile isDigit = number at read inside
      split at read
      · rename_i refers
        cases read
        rw [if_pos refers]
        exact congrArg some (Prod.ext rfl (drop_ahead inside (unit ')' :: t)))
      rename_i notRefers
      rw [if_neg notRefers]
      split at read
      · rename_i refers
        rw [if_pos refers]
        obtain ⟨named, given, rfl⟩ := Option.map_eq_some_iff.mp read
        rw [groupName_ahead given]
        rfl
      rename_i notNamed
      rw [if_neg notNamed]
      obtain ⟨character, given, rfl⟩ := Option.map_eq_some_iff.mp read
      rw [characterEscape_ahead, given]
      rfl

/-- What a token leaves, with a longer text after it. -/
private def extendToken (after : JsString) (found : Token × Bool × JsString) :
    Token × Bool × JsString := (found.1, found.2.1, found.2.2 ++ after)

private theorem termToken_ahead {context : Context} {c : CodeUnit}
    {found : Token × Bool × JsString} (read : termToken context c s = some found) :
    termToken context c (s ++ unit ')' :: t) = some (extendToken (unit ')' :: t) found) := by
  unfold termToken at read ⊢
  by_cases atStart : c = unit '^'
  · rw [if_pos atStart] at read ⊢
    cases read
    rfl
  rw [if_neg atStart] at read ⊢
  by_cases atEnd : c = unit '$'
  · rw [if_pos atEnd] at read ⊢
    cases read
    rfl
  rw [if_neg atEnd] at read ⊢
  by_cases atAny : c = unit '.'
  · rw [if_pos atAny] at read ⊢
    cases read
    rfl
  rw [if_neg atAny] at read ⊢
  by_cases atBar : c = unit '|'
  · rw [if_pos atBar] at read ⊢
    cases read
    rfl
  rw [if_neg atBar] at read ⊢
  by_cases atClose : c = unit ')'
  · rw [if_pos atClose] at read ⊢
    cases read
    rfl
  rw [if_neg atClose] at read ⊢
  by_cases atOpen : c = unit '('
  · rw [if_pos atOpen] at read ⊢
    obtain ⟨start, opens, rfl⟩ := Option.map_eq_some_iff.mp read
    rw [groupStart_ahead opens]
    rfl
  rw [if_neg atOpen] at read ⊢
  by_cases atClass : c = unit '['
  · rw [if_pos atClass] at read ⊢
    have caret : (s ++ unit ')' :: t).head? = some (unit '^') ↔ s.head? = some (unit '^') :=
      head?_ahead (by decide)
    simp only [caret]
    split at read
    · rename_i negated
      cases read
      rw [if_pos negated, tail_ahead negated]
      rfl
    · rename_i plain
      cases read
      rw [if_neg plain]
      rfl
  rw [if_neg atClass] at read ⊢
  by_cases atEscape : c = unit '\\'
  · rw [if_pos atEscape] at read ⊢
    cases s with
    | nil => cases read
    | cons d after =>
        obtain ⟨escaped, given, rfl⟩ := Option.map_eq_some_iff.mp read
        show (escapeToken context d (after ++ unit ')' :: t)).map _ = _
        rw [escapeToken_ahead given]
        rfl
  rw [if_neg atEscape] at read ⊢
  have bounds : quantifierBounds (c :: (s ++ unit ')' :: t)) =
      (quantifierBounds (c :: s)).map (extend (unit ')' :: t)) :=
    quantifierBounds_ahead (s := c :: s)
  rw [bounds]
  cases quantified : quantifierBounds (c :: s) with
  | some bound =>
      obtain ⟨⟨min, max⟩, after⟩ := bound
      have query : (after ++ unit ')' :: t).head? = some (unit '?') ↔
          after.head? = some (unit '?') := head?_ahead (by decide)
      simp only [quantified] at read
      simp only [Option.map_some, extend, query]
      split at read
      · cases read
      · rename_i ordered
        rw [if_neg ordered]
        split at read
        · rename_i lazy_
          cases read
          rw [if_pos lazy_, tail_ahead lazy_]
          rfl
        · rename_i greedy
          cases read
          rw [if_neg greedy]
          rfl
  | none =>
      simp only [quantified] at read
      simp only [Option.map_none]
      split at read
      · cases read
      · rename_i literal
        cases read
        rw [if_neg literal, sourceCharacter_ahead]
        rfl

private theorem classEscapeToken_ahead {context : Context} {c : CodeUnit}
    {found : ClassItem × JsString} (read : classEscapeToken context c s = some found) :
    classEscapeToken context c (s ++ unit ')' :: t) = some (extend (unit ')' :: t) found) := by
  unfold classEscapeToken at read ⊢
  rw [any_head?_ahead (by decide)]
  split at read
  · rename_i here
    cases read
    rw [if_pos here]
    rfl
  rename_i notBackspace
  rw [if_neg notBackspace]
  split at read
  · rename_i here
    cases read
    rw [if_pos here]
    rfl
  rename_i notDash
  rw [if_neg notDash]
  split at read
  · rename_i control
    cases read
    rw [if_pos control]
    cases s with
    | nil => simp at control
    | cons d rest => rfl
  rename_i notControl
  rw [if_neg notControl]
  cases set : classEscape context c s with
  | some refused =>
      rw [set] at read
      obtain ⟨known, rfl, rfl⟩ := Option.map_eq_some_iff.mp read
      rw [classEscape_ahead set]
      rfl
  | none =>
      simp only [set] at read
      rw [classEscape_none_ahead set]
      obtain ⟨character, given, rfl⟩ := Option.map_eq_some_iff.mp read
      simp only
      rw [characterEscape_ahead, given]
      rfl

private theorem classToken_ahead {context : Context} {c : CodeUnit}
    {found : Token × Bool × JsString} (read : classToken context c s = some found) :
    classToken context c (s ++ unit ')' :: t) = some (extendToken (unit ')' :: t) found) := by
  unfold classToken at read ⊢
  split at read
  · rename_i here
    cases read
    rw [if_pos here]
    rfl
  rename_i notClose
  rw [if_neg notClose]
  split at read
  · rename_i here
    cases read
    rw [if_pos here]
    rfl
  rename_i notDash
  rw [if_neg notDash]
  split at read
  · rename_i here
    rw [if_pos here]
    cases s with
    | nil => cases read
    | cons d after =>
        obtain ⟨escaped, given, rfl⟩ := Option.map_eq_some_iff.mp read
        show (classEscapeToken context d (after ++ unit ')' :: t)).map _ = _
        rw [classEscapeToken_ahead given]
        rfl
  rename_i notEscape
  rw [if_neg notEscape]
  cases read
  rw [sourceCharacter_ahead]
  rfl

/-- **Reading before a parenthesis.** A pattern that can be read to its end is read the same
before a `)`, and the reading goes on there outside every class. -/
private theorem tokens_ahead {context : Context} {inClass : Bool} {read : List Token}
    (all : tokens context inClass s = some read) :
    tokens context inClass (s ++ unit ')' :: t) =
      (tokens context false (unit ')' :: t)).map (read ++ ·) := by
  fun_induction tokens context inClass s generalizing read with
  | case1 => cases all
  | case2 inClass notInClass =>
      cases all
      rw [Bool.not_eq_true] at notInClass
      rw [notInClass, List.nil_append]
      exact Option.map_id'.symm
  | case3 => cases all
  | case4 inClass c rest token goesOn after found less inductionHypothesis =>
      obtain ⟨later, laterRead, rfl⟩ := Option.map_eq_some_iff.mp all
      have ahead : (if inClass then classToken context c (rest ++ unit ')' :: t)
          else termToken context c (rest ++ unit ')' :: t)) =
            some (token, goesOn, after ++ unit ')' :: t) := by
        cases inClass with
        | true => exact classToken_ahead found
        | false => exact termToken_ahead found
      rw [List.cons_append, tokens, ahead]
      simp only
      rw [if_pos (by
        simp only [List.length_cons, List.length_append] at less ⊢
        omega), inductionHypothesis laterRead, Option.map_map]
      rfl
  | case5 => cases all

private theorem nameStart_ahead :
    ((s ++ unit ')' :: t).head? = some (unit '<') ∧
        (s ++ unit ')' :: t)[1]? ≠ some (unit '=') ∧
          (s ++ unit ')' :: t)[1]? ≠ some (unit '!')) ↔
      (s.head? = some (unit '<') ∧ s[1]? ≠ some (unit '=') ∧ s[1]? ≠ some (unit '!')) := by
  rw [head?_ahead (by decide)]
  refine and_congr_right fun starts => ?_
  have inside : 1 ≤ s.length := by
    cases s with
    | nil => cases starts
    | cons d rest => exact Nat.succ_pos _
  rw [Ne, Ne, getElem?_ahead inside (by decide), getElem?_ahead inside (by decide)]

/-- The first reading counts the same groups with `)$` after the pattern. -/
private theorem captures_ahead : ∀ (inClass : Bool) (s : JsString),
    captures inClass (s ++ js ")$") = captures inClass s
  | inClass, [] => by
      show captures inClass (js ")$") = (0, false)
      revert inClass
      decide
  | inClass, [c] => by
      have shut : ∀ open_ : Bool, captures open_ [unit ')', unit '$'] = (0, false) := by decide
      have last : ∀ open_ : Bool, captures open_ [unit '$'] = (0, false) := by decide
      show captures inClass (c :: unit ')' :: [unit '$']) = _
      rw [captures, captures, shut, shut, shut, last]
      have notQuery : (unit ')' != unit '?') = true := by decide
      have different : unit '\\' ≠ unit '(' ∧ unit '[' ≠ unit '(' := by decide
      simp only [notQuery, if_true]
      cases inClass with
      | true => simp
      | false =>
          by_cases escape : c = unit '\\'
          · simp [escape, different.1]
          · by_cases bracket : c = unit '['
            · simp [bracket, different.2]
            · by_cases opens : c = unit '('
              · simp [opens, different.1.symm, different.2.symm]
              · simp [escape, bracket, opens]
  | inClass, c :: d :: rest => by
      have after := captures_ahead inClass rest
      have onward : ∀ open_ : Bool, captures open_ (d :: (rest ++ js ")$")) =
          captures open_ (d :: rest) := fun open_ => captures_ahead open_ (d :: rest)
      have named := nameStart_ahead (s := rest) (t := [unit '$'])
      show captures inClass (c :: d :: (rest ++ js ")$")) = _
      rw [captures, captures, after, onward, onward, onward]
      rw [show js ")$" = unit ')' :: [unit '$'] from rfl]
      simp only [named]

private theorem captures_pass {c d : CodeUnit} (rest : JsString) (noEscape : c ≠ unit '\\')
    (noClass : c ≠ unit '[') (noGroup : c ≠ unit '(') :
    captures false (c :: d :: rest) = captures false (d :: rest) := by
  rw [captures, if_neg noEscape, if_neg Bool.false_ne_true, if_neg noClass, if_neg noGroup]

/-- The wrapper before the pattern captures nothing. -/
private theorem captures_wrapped (s : JsString) :
    captures false (js "^(?:" ++ s) = captures false s := by
  have colon : captures false (unit ':' :: s) = captures false s := by
    cases s with
    | nil => decide
    | cons c rest => exact captures_pass rest (by decide) (by decide) (by decide)
  have query : captures false (unit '?' :: unit ':' :: s) = captures false s := by
    rw [captures_pass s (by decide) (by decide) (by decide), colon]
  show captures false (unit '^' :: unit '(' :: unit '?' :: unit ':' :: s) = captures false s
  rw [captures_pass _ (by decide) (by decide) (by decide), captures, if_neg (by decide),
    if_neg Bool.false_ne_true, if_neg (by decide), if_pos rfl, query]
  simp only [bne_self_eq_false, Bool.false_eq_true, if_false]
  exact if_neg fun starts => absurd (Option.some.inj starts.1) (by decide)

end Tokens

/-! ### Parsing inside a group -/

/-- A pattern between the anchors. -/
def wrapped (pattern : JsString) : JsString := js "^(?:" ++ pattern ++ js ")$"

/-- The tree of a wrapped pattern. -/
def anchored (node : Node) : Node := .seq .lineStart (.seq (.group node) (.seq .lineEnd .empty))

private theorem contextOf_wrapped (tables : Tables) (flags : Flags) (pattern : JsString) :
    contextOf tables flags (wrapped pattern) = contextOf tables flags pattern := by
  unfold contextOf wrapped
  rw [captures_ahead, captures_wrapped]

section Wrapper

variable (context : Context) (rest : JsString)

private theorem termToken_start :
    termToken context (unit '^') rest = some (.term .lineStart false, false, rest) := by
  unfold termToken
  rw [if_pos rfl]

private theorem termToken_end :
    termToken context (unit '$') rest = some (.term .lineEnd false, false, rest) := by
  unfold termToken
  rw [if_neg (by decide), if_pos rfl]

private theorem termToken_close :
    termToken context (unit ')') rest = some (.closeGroup, false, rest) := by
  unfold termToken
  rw [if_neg (by decide), if_neg (by decide), if_neg (by decide), if_neg (by decide), if_pos rfl]

private theorem termToken_group :
    termToken context (unit '(') (unit '?' :: unit ':' :: rest) =
      some (.openGroup .nonCapturing, false, rest) := by
  have opens : groupStart context.tables (unit '?' :: unit ':' :: rest) =
      some (.nonCapturing, rest) := by
    unfold groupStart
    exact (if_pos rfl).trans (if_pos rfl)
  unfold termToken
  rw [if_neg (by decide), if_neg (by decide), if_neg (by decide), if_neg (by decide),
    if_neg (by decide), if_pos rfl, opens]
  rfl

end Wrapper

private theorem tokens_step {context : Context} {c : CodeUnit} {rest after : JsString}
    {token : Token} (read : termToken context c rest = some (token, false, after))
    (less : after.length ≤ rest.length) :
    tokens context false (c :: rest) = (tokens context false after).map (token :: ·) := by
  rw [tokens]
  simp only [Bool.false_eq_true, if_false, read]
  exact if_pos (Nat.lt_succ_of_le less)

private theorem tokens_wrapped {context : Context} {pattern : JsString} {read : List Token}
    (all : tokens context false pattern = some read) :
    tokens context false (wrapped pattern) =
      some (.term .lineStart false :: .openGroup .nonCapturing ::
        (read ++ [.closeGroup, .term .lineEnd false])) := by
  have done : tokens context false [] = some [] := by
    rw [tokens]
    rfl
  have shut : tokens context false [unit ')', unit '$'] =
      some [.closeGroup, .term .lineEnd false] := by
    rw [tokens_step (termToken_close context _) (Nat.le_refl _),
      tokens_step (termToken_end context _) (Nat.le_refl _), done]
    rfl
  show tokens context false
    (unit '^' :: unit '(' :: unit '?' :: unit ':' :: (pattern ++ [unit ')', unit '$'])) = _
  rw [tokens_step (termToken_start context _) (Nat.le_refl _),
    tokens_step (termToken_group context _) (by simp), tokens_ahead all, shut]
  rfl

/-- The same state inside further groups. -/
private def ParseState.within (state : ParseState) (around : List (Opener × Branch)) :
    ParseState :=
  { state with outer := state.outer ++ around }

/-- A token that can be read does the same inside further groups. -/
private theorem step_within {unicode : Bool} {state next : ParseState} {token : Token}
    (read : state.step unicode token = some next) (around : List (Opener × Branch)) :
    (state.within around).step unicode token = some (next.within around) := by
  cases token with
  | term node quantifiable =>
      cases read
      rfl
  | quantifier min max greedy =>
      obtain ⟨⟨alternatives, terms⟩, outer, openClass, groups, names⟩ := state
      cases terms with
      | nil => cases read
      | cons term rest =>
          obtain ⟨node, quantifiable⟩ := term
          cases quantifiable with
          | false => cases read
          | true =>
              cases read
              rfl
  | bar =>
      cases read
      rfl
  | openGroup start =>
      cases read
      cases start with
      | nonCapturing => rfl
      | capturing name => rfl
      | look behind negated => rfl
  | closeGroup =>
      unfold ParseState.step at read
      simp only at read
      split at read
      · cases read
      · rename_i opener branch rest groups
        cases read
        unfold ParseState.step ParseState.within
        rw [groups]
        rfl
  | openClass negated =>
      cases read
      rfl
  | classAtom item =>
      obtain ⟨open_, here, added⟩ := Option.bind_eq_some_iff.mp read
      obtain ⟨later, adds, rfl⟩ := Option.map_eq_some_iff.mp added
      show state.openClass.bind _ = _
      rw [here, Option.bind_some, adds]
      rfl
  | classDash =>
      obtain ⟨open_, here, added⟩ := Option.bind_eq_some_iff.mp read
      obtain ⟨later, adds, rfl⟩ := Option.map_eq_some_iff.mp added
      show state.openClass.bind _ = _
      rw [here, Option.bind_some, adds]
      rfl
  | closeClass =>
      obtain ⟨open_, here, rfl⟩ := Option.map_eq_some_iff.mp read
      show state.openClass.map _ = _
      rw [here]
      rfl

/-- A list of tokens that can be read does the same inside further groups. -/
private theorem run_within {unicode : Bool} {read : List Token} {state last : ParseState}
    (all : read.foldlM (ParseState.step unicode) state = some last)
    (around : List (Opener × Branch)) :
    read.foldlM (ParseState.step unicode) (state.within around) = some (last.within around) := by
  induction read generalizing state with
  | nil =>
      cases all
      rfl
  | cons token rest inductionHypothesis =>
      rw [List.foldlM_cons] at all ⊢
      obtain ⟨next, here, later⟩ := Option.bind_eq_some_iff.mp all
      show ((state.within around).step unicode token).bind _ = _
      rw [step_within here]
      exact inductionHypothesis later

private theorem parse_wrapped {unicode : Bool} {read : List Token} {compiled : Compiled}
    (parsed : parse unicode read = some compiled) :
    parse unicode (.term .lineStart false :: .openGroup .nonCapturing ::
        (read ++ [.closeGroup, .term .lineEnd false])) =
      some ⟨anchored compiled.node, compiled.names⟩ := by
  unfold parse at parsed
  cases all : read.foldlM (ParseState.step unicode) ParseState.start with
  | none =>
      rw [all] at parsed
      cases parsed
  | some last =>
      simp only [all] at parsed
      split at parsed
      · rename_i valid
        cases parsed
        let top := Branch.start.push .lineStart false
        have inside := run_within all [(.nonCapturing, top)]
        have closed : last.outer = [] := List.isEmpty_iff.mp valid.1
        have whole : List.foldlM (ParseState.step unicode) ParseState.start
            (.term .lineStart false :: .openGroup .nonCapturing ::
              (read ++ [.closeGroup, .term .lineEnd false])) =
            some { last with
              inner := (top.push (.group last.inner.node) true).push .lineEnd false
              outer := [] } := by
          show List.foldlM (ParseState.step unicode)
            (ParseState.start.within [(.nonCapturing, top)])
              (read ++ [.closeGroup, .term .lineEnd false]) = _
          rw [List.foldlM_append, inside]
          show List.foldlM (ParseState.step unicode) (last.within [(.nonCapturing, top)])
            [.closeGroup, .term .lineEnd false] = _
          unfold ParseState.within
          rw [closed]
          rfl
        unfold parse
        rw [whole]
        simp only
        rw [if_pos]
        · rfl
        · refine ⟨rfl, valid.2.1, valid.2.2.1, ?_⟩
          have known := valid.2.2.2
          rw [List.all_cons, List.all_cons, List.all_append, known]
          rfl
      · cases parsed

/-- **Wrapping.** A pattern that compiles on its own compiles between the anchors, to its
tree in a group between them. -/
theorem compile_wrapped {tables : Tables} {flags : Flags} {pattern : JsString}
    {compiled : Compiled} (compiles : compile tables flags pattern = some compiled) :
    compile tables flags (wrapped pattern) =
      some ⟨anchored compiled.node, compiled.names⟩ := by
  obtain ⟨read, reads, parsed⟩ := Option.bind_eq_some_iff.mp compiles
  unfold compile
  rw [contextOf_wrapped, tokens_wrapped reads]
  exact parse_wrapped parsed

/-! ### Matching between the anchors -/

private theorem mem_ways_anchored {subject : Subject} {node : Node} {start : Nat} {way : Place} :
    way ∈ (anchored node).ways subject true (.at start) ↔
      subject.atLineStart start = true ∧ way ∈ node.ways subject true (.at start) ∧
        subject.atLineEnd way.index = true := by
  simp only [anchored, Node.ways, if_true, List.mem_flatMap, List.mem_ite_nil_right,
    List.mem_singleton]
  constructor
  · rintro ⟨place, ⟨starts, rfl⟩, middle, found, after, ⟨ends, rfl⟩, rfl⟩
    exact ⟨starts, found, ends⟩
  · rintro ⟨starts, found, ends⟩
    exact ⟨_, ⟨starts, rfl⟩, way, found, way, ⟨ends, rfl⟩, rfl⟩

/-- Between the anchors a pattern is matched from some start of a line to some end of one. -/
theorem test_anchored {compiled : Compiled} {tables : Tables} {flags : Flags} {text : JsString} :
    (Compiled.mk (anchored compiled.node) compiled.names).test tables flags text = true ↔
      compiled.MatchesLines tables flags text := by
  unfold Compiled.test Compiled.MatchesLines
  simp only [List.any_eq_true, List.mem_range, Bool.not_eq_true',
    List.isEmpty_eq_false_iff_exists_mem]
  show (∃ start, start < (compiled.subject tables flags text).input.length + 1 ∧
    ∃ way, way ∈ (anchored compiled.node).ways (compiled.subject tables flags text) true
      (.at start)) ↔ _
  simp only [mem_ways_anchored]
  constructor
  · rintro ⟨start, inside, way, starts, found, ends⟩
    exact ⟨start, Nat.lt_succ_iff.mp inside, starts, way, found, ends⟩
  · rintro ⟨start, inside, starts, way, found, ends⟩
    exact ⟨start, Nat.lt_succ_iff.mpr inside, way, starts, found, ends⟩

/-- Between the anchors a pattern matches the whole of a text exactly when it does without. -/
theorem matchesWhole_anchored {compiled : Compiled} {tables : Tables} {flags : Flags}
    {text : JsString} :
    (Compiled.mk (anchored compiled.node) compiled.names).MatchesWhole tables flags text ↔
      compiled.MatchesWhole tables flags text := by
  unfold Compiled.MatchesWhole
  show (∃ way, way ∈ (anchored compiled.node).ways (compiled.subject tables flags text) true
    (.at 0) ∧ way.index = (compiled.subject tables flags text).input.length) ↔ _
  simp only [mem_ways_anchored]
  constructor
  · rintro ⟨way, ⟨_, found, _⟩, ends⟩
    exact ⟨way, found, ends⟩
  · rintro ⟨way, found, ends⟩
    refine ⟨way, ⟨rfl, found, ?_⟩, ends⟩
    rw [Subject.atLineEnd, ends, beq_self_eq_true, Bool.true_or]

/-- Without `m` the only line is the whole text. -/
theorem matchesLines_iff_matchesWhole {compiled : Compiled} {tables : Tables} {flags : Flags}
    {text : JsString} (single : flags.multiline = false) :
    compiled.MatchesLines tables flags text ↔ compiled.MatchesWhole tables flags text := by
  have same : (compiled.subject tables flags text).flags.multiline = false := single
  have first : ∀ start, (compiled.subject tables flags text).atLineStart start = (start == 0) := by
    intro start
    rw [Subject.atLineStart, same, Bool.false_and, Bool.or_false]
  have last : ∀ index, (compiled.subject tables flags text).atLineEnd index =
      (index == (compiled.subject tables flags text).input.length) := by
    intro index
    rw [Subject.atLineEnd, same, Bool.false_and, Bool.or_false]
  unfold Compiled.MatchesLines Compiled.MatchesWhole
  simp only [first, last, beq_iff_eq]
  constructor
  · rintro ⟨start, _, rfl, way, found, ends⟩
    exact ⟨way, found, ends⟩
  · rintro ⟨way, found, ends⟩
    exact ⟨0, Nat.zero_le _, rfl, way, found, ends⟩

end Assaybank.Runtime.RegExp
