import Assaybank.Markdown.RawHtml
import Assaybank.Runtime.Lines

/-!
Owns what the search for raw HTML finds where a source holds no code
(`packages/markdown/src/raw-html.ts`): every tag-like fragment whose name is not followed
by an inner `/`, and the lines reported. It proves exactly which sources have every
tag-like fragment reported. It does not own what counts as code.
-/

namespace Assaybank.Markdown

open Assaybank.Runtime

/-- `[a-zA-Z0-9-]`. -/
def isTagNameUnit (c : CodeUnit) : Bool := isAlpha c || isDigit c || c == unit '-'

/-- `<`, an optional `/`, a tag name followed by white space, `/` or `>`, and all up to
the first `>`, with no `<` before it. -/
structure TagLike where
  closing : Bool
  first : CodeUnit
  name : JsString
  attributes : JsString
  first_alpha : isAlpha first = true
  name_units : ∀ c ∈ name, isTagNameUnit c = true
  attributes_start : ∀ c, attributes.head? = some c → isSpace c = true ∨ c = unit '/'
  attributes_open : unit '<' ∉ attributes
  attributes_inside : unit '>' ∉ attributes

/-- The fragment after its `<`. -/
def TagLike.body (tag : TagLike) : JsString :=
  (if tag.closing then [unit '/'] else []) ++ tag.first :: (tag.name ++ (tag.attributes ++ [unit '>']))

/-- The fragment as it stands in a source. -/
def TagLike.source (tag : TagLike) : JsString := unit '<' :: tag.body

/-- The name is followed by a `/` that is not the one before the `>`. -/
def TagLike.InnerSlash (tag : TagLike) : Prop :=
  tag.attributes.head? = some (unit '/') ∧ tag.attributes ≠ [unit '/']

/-- The matches of a pattern that do not overlap, from left to right. `matchAt` is the
length of the match at the start of a text. -/
def matchAll (matchAt : JsString → Option Nat) (rest : JsString) (position : Nat) :
    List (Nat × Nat) :=
  match rest with
  | [] => []
  | c :: tail =>
      match matchAt (c :: tail) with
      | some length =>
          (position, length) ::
            matchAll matchAt (tail.drop (length - 1)) (position + (length - 1) + 1)
      | none => matchAll matchAt tail (position + 1)
termination_by rest.length
decreasing_by all_goals simp; try omega

/-- A comment or a processing instruction at the start of a text. -/
def quotedAt (rest : JsString) : Option Nat :=
  match rest with
  | [] => none
  | c :: tail =>
      if c = unit '<' then ((commentAt tail).or (instructionAt tail)).map (· + 1) else none

/-- The comments and processing instructions of a source. -/
def quotations (source : JsString) : List (Nat × Nat) := matchAll quotedAt source 0

/-- One of the spans holds everything from `start` to `stop`. -/
def Covers (spans : List (Nat × Nat)) (start stop : Nat) : Prop :=
  ∃ span ∈ spans, span.1 ≤ start ∧ stop ≤ span.1 + span.2

/-- Every tag-like fragment lies in a match that is reported, and every report carries
the line of a match. -/
structure FullyReported (source : JsString) : Prop where
  covered : ∀ (tag : TagLike) (start : Nat), tag.source <+: source.drop start →
    ∃ found ∈ htmlMatches (maskCode source) 0,
      found.1 ≤ start ∧ start + tag.source.length ≤ found.1 + found.2 ∧
        rawHtmlFinding source found.1 found.2 ∈ findRawHtml source
  lined : ∀ finding ∈ findRawHtml source, ∃ found ∈ htmlMatches (maskCode source) 0,
    finding = rawHtmlFinding source found.1 found.2 ∧ source[found.1]? = some (unit '<') ∧
      finding.line = 1 + (source.take found.1).count (unit '\n')

/-! ### No code, no mask -/

private theorem runLength_absent {s : JsString} {c : CodeUnit} (absent : c ∉ s) :
    runLength s 0 c = 0 := by
  cases s with
  | nil => rfl
  | cons d rest =>
      have different : d ≠ c := fun same => absent (same ▸ List.mem_cons_self)
      simp [runLength, different]

private theorem fenceAt_absent {rest : JsString} (noTick : unit '`' ∉ rest)
    (noTilde : unit '~' ∉ rest) : fenceAt rest = none := by
  have tick : runLength (rest.drop (rest.takeWhile (· == unit ' ')).length) 0 (unit '`') = 0 :=
    runLength_absent fun member => noTick (List.mem_of_mem_drop member)
  have tilde : runLength (rest.drop (rest.takeWhile (· == unit ' ')).length) 0 (unit '~') = 0 :=
    runLength_absent fun member => noTilde (List.mem_of_mem_drop member)
  unfold fenceAt
  simp [tick, tilde]

private theorem fenceLines_absent {rest : JsString} (noTick : unit '`' ∉ rest)
    (noTilde : unit '~' ∉ rest) (position : Nat) (lineStart : Bool) :
    fenceLines rest position lineStart = [] := by
  induction rest generalizing position lineStart with
  | nil => rw [fenceLines]
  | cons c tail inductionHypothesis =>
      have none : (if lineStart then fenceAt (c :: tail) else none) = none := by
        rw [fenceAt_absent noTick noTilde, ite_self]
      rw [fenceLines, none]
      exact inductionHypothesis (fun member => noTick (List.mem_cons_of_mem _ member))
        (fun member => noTilde (List.mem_cons_of_mem _ member)) _ _

private theorem blankCodeSpans_absent {rest : JsString} (noTick : unit '`' ∉ rest) :
    blankCodeSpans rest = rest := by
  induction rest with
  | nil => rw [blankCodeSpans]
  | cons c tail inductionHypothesis =>
      rw [blankCodeSpans, runLength_absent noTick]
      simp only [codeSpanEnd]
      rw [inductionHypothesis fun member => noTick (List.mem_cons_of_mem _ member)]

/-- A source without backtick or tilde holds no code, so nothing is blanked. -/
theorem maskCode_absent {source : JsString} (noTick : unit '`' ∉ source)
    (noTilde : unit '~' ∉ source) : maskCode source = source := by
  unfold maskCode
  rw [fenceLines_absent noTick noTilde]
  show blankCodeSpans (source.drop 0) = source
  rw [List.drop_zero, blankCodeSpans_absent noTick]

/-! ### What matches at one place -/

private theorem space_not_markup {c : CodeUnit} (space : isSpace c = true) :
    c ≠ unit '/' ∧ isTagNameUnit c = false := by
  constructor
  · rintro rfl
    exact absurd space (by decide)
  · by_contra named
    revert space named
    simp only [isSpace, isTagNameUnit, isAlpha, isLower, isUpper, isDigit, Bool.not_eq_false]
    intro space named
    simp only [Bool.or_eq_true, Bool.and_eq_true, decide_eq_true_eq, beq_iff_eq,
      UInt16.le_iff_toNat_le, ← UInt16.toNat_inj, unit] at space named
    simp at space named
    omega

private theorem takeWhile_stop {p : CodeUnit → Bool} {word : JsString} {stop : CodeUnit}
    (inside : ∀ c ∈ word, p c = true) (outside : p stop = false) (rest : JsString) :
    (word ++ stop :: rest).takeWhile p = word := by
  rw [List.takeWhile_append_of_pos inside, List.takeWhile_cons_of_neg (by simp [outside]),
    List.append_nil]

/-- What follows the name of a tag cannot be part of the name. -/
private theorem after_name (tag : TagLike) (rest : JsString) :
    ∃ stop after, tag.attributes ++ unit '>' :: rest = stop :: after ∧
      isTagNameUnit stop = false := by
  cases shape : tag.attributes with
  | nil => exact ⟨unit '>', rest, rfl, by decide⟩
  | cons c more =>
      refine ⟨c, more ++ unit '>' :: rest, rfl, ?_⟩
      rcases tag.attributes_start c (by rw [shape]; rfl) with space | slash
      · exact (space_not_markup space).2
      · rw [slash]
        decide

private theorem isTagNameUnit_first (tag : TagLike) : isTagNameUnit tag.first = true := by
  simp [isTagNameUnit, tag.first_alpha]

/-- `tagAt` once the optional slash and the name have been read. -/
private def tagEnd (read : Nat) (after : JsString) : Option Nat :=
  if after.head?.any isSpace then
    let inner := (after.takeWhile fun c => c != unit '<' && c != unit '>').length
    if after[inner]? = some (unit '>') then some (read + inner + 1) else none
  else if (js "/>").isPrefixOf after then some (read + 2)
  else if (js ">").isPrefixOf after then some (read + 1)
  else none

private theorem tagAt_eq (rest : JsString) :
    tagAt rest =
      let slash := if rest.head? = some (unit '/') then 1 else 0
      let body := rest.drop slash
      if body.head?.any isAlpha then
        let name := (body.takeWhile isTagNameUnit).length
        tagEnd (slash + name) (body.drop name)
      else none := rfl

private theorem tagAt_body (tag : TagLike) (rest : JsString) :
    tagAt (tag.body ++ rest) =
      tagEnd (tag.body.length - tag.attributes.length - 1) (tag.attributes ++ unit '>' :: rest) := by
  obtain ⟨stop, after, split, outside⟩ := after_name tag rest
  have named : (tag.first :: (tag.name ++ stop :: after)).takeWhile isTagNameUnit =
      tag.first :: tag.name := by
    have units : ∀ c ∈ tag.first :: tag.name, isTagNameUnit c = true := by
      intro c member
      rcases List.mem_cons.mp member with rfl | member
      · exact isTagNameUnit_first tag
      · exact tag.name_units c member
    exact takeWhile_stop units outside after
  have notSlash : tag.first ≠ unit '/' := by
    intro same
    have alpha := tag.first_alpha
    rw [same] at alpha
    exact absurd alpha (by decide)
  rw [tagAt_eq]
  cases closing : tag.closing with
  | false =>
      have whole : tag.body ++ rest = tag.first :: (tag.name ++ stop :: after) := by
        rw [← split]
        simp [TagLike.body, closing]
      have size : tag.body.length - tag.attributes.length - 1 = tag.name.length + 1 := by
        simp [TagLike.body, closing]
        omega
      rw [whole, size, split]
      simp only [List.head?_cons, Option.some.injEq, notSlash, if_false, List.drop_zero,
        Option.any_some, tag.first_alpha, if_true, named, List.length_cons, Nat.zero_add,
        List.drop_succ_cons, List.drop_left]
  | true =>
      have whole : tag.body ++ rest = unit '/' :: tag.first :: (tag.name ++ stop :: after) := by
        rw [← split]
        simp [TagLike.body, closing]
      have size : tag.body.length - tag.attributes.length - 1 = 1 + (tag.name.length + 1) := by
        simp [TagLike.body, closing]
        omega
      rw [whole, size, split]
      simp only [List.head?_cons, if_true, List.drop_succ_cons, List.drop_zero,
        Option.any_some, tag.first_alpha, named, List.length_cons, List.drop_left]

private theorem length_body (tag : TagLike) :
    tag.body.length - tag.attributes.length - 1 + tag.attributes.length + 1 = tag.body.length := by
  simp [TagLike.body]
  omega

/-- A tag-like fragment is matched whole, unless its name is followed by an inner `/`. -/
private theorem tagAt_of_not_innerSlash {tag : TagLike} (plain : ¬ tag.InnerSlash)
    (rest : JsString) : tagAt (tag.body ++ rest) = some tag.body.length := by
  rw [tagAt_body]
  have size := length_body tag
  generalize tag.body.length - tag.attributes.length - 1 = read at size
  rw [← size]
  cases shape : tag.attributes with
  | nil => simp [tagEnd, js, unit, isSpace, List.isPrefixOf]
  | cons c more =>
      rcases tag.attributes_start c (by rw [shape]; rfl) with space | slash
      · have inner : ((c :: more) ++ unit '>' :: rest).takeWhile
            (fun c => c != unit '<' && c != unit '>') = c :: more := by
          apply takeWhile_stop _ (by decide)
          intro d member
          rw [← shape] at member
          have notOpen : d ≠ unit '<' := fun same => tag.attributes_open (same ▸ member)
          have notClose : d ≠ unit '>' := fun same => tag.attributes_inside (same ▸ member)
          simp [notOpen, notClose]
        unfold tagEnd
        simp only [inner]
        rw [if_pos (by simp [space]), if_pos (by simp)]
      · have single : more = [] := by
          by_contra longer
          apply plain
          rw [TagLike.InnerSlash, shape, slash]
          exact ⟨rfl, fun same => longer (List.cons.inj same).2⟩
        rw [slash, single]
        simp [tagEnd, js, unit, isSpace, List.isPrefixOf]

private theorem tagAt_of_innerSlash {tag : TagLike} (inner : tag.InnerSlash)
    (rest : JsString) : tagAt (tag.body ++ rest) = none := by
  rw [tagAt_body]
  obtain ⟨starts, longer⟩ := inner
  cases shape : tag.attributes with
  | nil => simp [shape] at starts
  | cons c more =>
      rw [shape] at starts longer
      have slash : c = unit '/' := by simpa using starts
      subst slash
      cases more with
      | nil => exact absurd rfl longer
      | cons d more =>
          have notClose : d ≠ unit '>' := by
            intro same
            apply tag.attributes_inside
            rw [shape, same]
            simp
          have differs : ¬ unit '>' = d := fun same => notClose same.symm
          unfold tagEnd
          simp [js, List.isPrefixOf, differs, show isSpace (unit '/') = false by decide,
            show (unit '>' == unit '/') = false by decide]

private theorem take_takeWhile (p : CodeUnit → Bool) (s : JsString) :
    s.take (s.takeWhile p).length = s.takeWhile p :=
  (List.prefix_iff_eq_take.mp (List.takeWhile_prefix p)).symm

private theorem not_mem_takeWhile {p : CodeUnit → Bool} {c : CodeUnit} (outside : p c = false)
    (s : JsString) : c ∉ s.takeWhile p := by
  intro member
  rw [List.mem_takeWhile_imp member] at outside
  cases outside

private theorem tagEnd_open {read length : Nat} {after : JsString}
    (found : tagEnd read after = some length) :
    ∃ more, length = read + more ∧ unit '<' ∉ after.take more := by
  unfold tagEnd at found
  split at found
  · simp only at found
    split at found
    · rename_i closes
      cases found
      refine ⟨_, Nat.add_assoc _ _ _, ?_⟩
      rw [List.take_add_one, take_takeWhile, closes, List.mem_append]
      rintro (member | member)
      · exact not_mem_takeWhile (by decide) after member
      · exact absurd member (by decide)
    · cases found
  · split at found
    · rename_i closes
      cases found
      obtain ⟨tail, rfl⟩ := List.isPrefixOf_iff_prefix.mp closes
      exact ⟨2, rfl, by simp [js, unit]⟩
    · split at found
      · rename_i closes
        cases found
        obtain ⟨tail, rfl⟩ := List.isPrefixOf_iff_prefix.mp closes
        exact ⟨1, rfl, by simp [js, unit]⟩
      · cases found

/-- A tag holds no second `<`. -/
private theorem tagAt_open {rest : JsString} {length : Nat} (found : tagAt rest = some length) :
    unit '<' ∉ rest.take length := by
  rw [tagAt_eq] at found
  have slashPart : unit '<' ∉ rest.take (if rest.head? = some (unit '/') then 1 else 0) := by
    split
    · rename_i starts
      cases rest with
      | nil => simp
      | cons c tail =>
          have : c = unit '/' := by simpa using starts
          rw [this]
          simp [unit]
    · simp
  generalize (if rest.head? = some (unit '/') then 1 else 0) = slash at found slashPart
  simp only at found
  split at found
  · obtain ⟨more, rfl, endPart⟩ := tagEnd_open found
    rw [List.take_add, List.take_add, take_takeWhile, ← List.drop_drop, List.mem_append,
      List.mem_append]
    rintro ((member | member) | member)
    · exact slashPart member
    · exact not_mem_takeWhile (by decide) _ member
    · exact endPart member
  · cases found

/-- A declaration holds no second `<`. -/
private theorem declarationAt_open {rest : JsString} {length : Nat}
    (found : declarationAt rest = some length) : unit '<' ∉ rest.take length := by
  unfold declarationAt at found
  split at found
  · simp only at found
    split at found
    · rename_i closes
      cases found
      rw [List.take_add_one, take_takeWhile, closes, List.mem_append]
      rintro (member | member)
      · exact not_mem_takeWhile (by decide) rest member
      · exact absurd member (by decide)
    · cases found
  · cases found

private theorem commentEnd_closes {s : JsString} {position stop : Nat}
    (found : commentEnd s position = some stop) :
    position < stop ∧ s[stop - position - 1]? = some (unit '>') := by
  fun_induction commentEnd s position with
  | case1 => cases found
  | case2 c rest position closes =>
      cases found
      obtain ⟨tail, whole⟩ := List.isPrefixOf_iff_prefix.mp closes
      rw [← whole]
      exact ⟨by omega, by simp [js]⟩
  | case3 c rest position _ closes =>
      cases found
      obtain ⟨tail, whole⟩ := List.isPrefixOf_iff_prefix.mp closes
      rw [← whole]
      exact ⟨by omega, by simp [js]⟩
  | case4 c rest position _ _ inductionHypothesis =>
      obtain ⟨later, closes⟩ := inductionHypothesis found
      refine ⟨by omega, ?_⟩
      rw [show stop - position - 1 = stop - (position + 1) - 1 + 1 by omega]
      simpa using closes

/-- A comment ends with a `>`. -/
private theorem commentAt_closes {rest : JsString} {length : Nat}
    (found : commentAt rest = some length) :
    0 < length ∧ rest[length - 1]? = some (unit '>') := by
  unfold commentAt at found
  split at found
  · obtain ⟨later, closes⟩ := commentEnd_closes found
    rw [List.getElem?_drop, show 3 + (length - 3 - 1) = length - 1 by omega] at closes
    exact ⟨by omega, closes⟩
  · cases found

/-- A processing instruction ends with a `>`. -/
private theorem instructionAt_closes {rest : JsString} {length : Nat}
    (found : instructionAt rest = some length) :
    0 < length ∧ rest[length - 1]? = some (unit '>') := by
  unfold instructionAt at found
  split at found
  · obtain ⟨start, index, rfl⟩ := Option.map_eq_some_iff.mp found
    obtain ⟨_, _, tail, whole⟩ := indexOf_spec index
    have here : (rest.drop start)[1]? = some (unit '>') := by
      rw [← whole]
      simp [js]
    rw [List.getElem?_drop] at here
    exact ⟨Nat.succ_pos _, here⟩
  · cases found

private theorem commentAt_head {rest : JsString} {length : Nat}
    (found : commentAt rest = some length) : rest.head? = some (unit '!') := by
  unfold commentAt at found
  split at found
  · rename_i opens
    obtain ⟨tail, rfl⟩ := List.isPrefixOf_iff_prefix.mp opens
    rfl
  · cases found

private theorem instructionAt_head {rest : JsString} {length : Nat}
    (found : instructionAt rest = some length) : rest.head? = some (unit '?') := by
  unfold instructionAt at found
  split at found
  · assumption
  · cases found

private theorem declarationAt_head {rest : JsString} {length : Nat}
    (found : declarationAt rest = some length) : rest.head? = some (unit '!') := by
  unfold declarationAt at found
  split at found
  · assumption
  · cases found

private theorem tagAt_head {rest : JsString} {length : Nat} (found : tagAt rest = some length) :
    rest.head? ≠ some (unit '!') ∧ rest.head? ≠ some (unit '?') := by
  cases rest with
  | nil => exact ⟨nofun, nofun⟩
  | cons c tail =>
      by_cases slash : c = unit '/'
      · rw [slash, List.head?_cons]
        exact ⟨by decide, by decide⟩
      · rw [tagAt_eq] at found
        simp only [List.head?_cons, Option.some.injEq, slash, if_false, List.drop_zero,
          Option.any_some] at found
        constructor
        · rintro same
          rw [Option.some.inj same] at found
          exact absurd found (by simp [show isAlpha (unit '!') = false by decide])
        · rintro same
          rw [Option.some.inj same] at found
          exact absurd found (by simp [show isAlpha (unit '?') = false by decide])

/-- Only `!` and `?` open a comment or an instruction. -/
private theorem not_quoted {rest : JsString} (mark : rest.head? ≠ some (unit '!'))
    (query : rest.head? ≠ some (unit '?')) :
    commentAt rest = none ∧ instructionAt rest = none := by
  constructor
  · cases commented : commentAt rest with
    | none => rfl
    | some length => exact absurd (commentAt_head commented) mark
  · cases instructed : instructionAt rest with
    | none => rfl
    | some length => exact absurd (instructionAt_head instructed) query

/-- What is quoted is a match of the whole pattern and ends with a `>`; any other match
holds no second `<`. -/
private theorem htmlLikeAt_cases {s : JsString} {length : Nat}
    (found : htmlLikeAt s = some length) :
    quotedAt s = some length ∨ (quotedAt s = none ∧ unit '<' ∉ (s.take length).tail) := by
  cases s with
  | nil => cases found
  | cons c tail =>
      unfold htmlLikeAt at found
      unfold quotedAt
      simp only at found ⊢
      split at found
      · rename_i opens
        rw [if_pos opens]
        obtain ⟨inner, alternative, rfl⟩ := Option.map_eq_some_iff.mp found
        rw [List.take_succ_cons, List.tail_cons]
        cases tagged : tagAt tail with
        | some taken =>
            right
            rw [tagged] at alternative
            cases alternative
            obtain ⟨noComment, noInstruction⟩ :=
              not_quoted (tagAt_head tagged).1 (tagAt_head tagged).2
            rw [noComment, noInstruction]
            exact ⟨rfl, tagAt_open tagged⟩
        | none =>
            rw [tagged, Option.none_or] at alternative
            cases commented : commentAt tail with
            | some taken =>
                left
                rw [commented] at alternative
                cases alternative
                rfl
            | none =>
                rw [commented, Option.none_or] at alternative
                cases declared : declarationAt tail with
                | some taken =>
                    right
                    rw [declared] at alternative
                    cases alternative
                    have noInstruction : instructionAt tail = none := by
                      cases instructed : instructionAt tail with
                      | none => rfl
                      | some length =>
                          have heads := (declarationAt_head declared).symm.trans
                            (instructionAt_head instructed)
                          exact absurd heads (by decide)
                    rw [noInstruction]
                    exact ⟨rfl, declarationAt_open declared⟩
                | none =>
                    left
                    rw [declared, Option.none_or] at alternative
                    rw [Option.none_or, alternative]
                    rfl
      · cases found

private theorem quotedAt_of_not_html {s : JsString} (absent : htmlLikeAt s = none) :
    quotedAt s = none := by
  cases s with
  | nil => rfl
  | cons c tail =>
      unfold htmlLikeAt at absent
      unfold quotedAt
      simp only at absent ⊢
      split
      · rename_i opens
        rw [if_pos opens, Option.map_eq_none_iff] at absent
        rw [Option.map_eq_none_iff]
        cases commented : commentAt tail with
        | some length => simp [commented] at absent
        | none =>
            cases instructed : instructionAt tail with
            | some length => simp [instructed] at absent
            | none => rfl
      · rfl

private theorem quotedAt_closes {s : JsString} {length : Nat} (found : quotedAt s = some length) :
    0 < length ∧ s[length - 1]? = some (unit '>') := by
  cases s with
  | nil => cases found
  | cons c tail =>
      unfold quotedAt at found
      simp only at found
      split at found
      · obtain ⟨inner, alternative, rfl⟩ := Option.map_eq_some_iff.mp found
        refine ⟨Nat.succ_pos _, ?_⟩
        rw [Nat.add_sub_cancel]
        have closes : 0 < inner ∧ tail[inner - 1]? = some (unit '>') := by
          rcases Option.or_eq_some_iff.mp alternative with commented | ⟨_, instructed⟩
          · exact commentAt_closes commented
          · exact instructionAt_closes instructed
        obtain ⟨positive, closes⟩ := closes
        rwa [show inner = inner - 1 + 1 by omega, List.getElem?_cons_succ]
      · cases found

private theorem htmlLikeAt_tag (tag : TagLike) (rest : JsString) :
    htmlLikeAt (tag.source ++ rest) = (tagAt (tag.body ++ rest)).map (· + 1) ∧
      quotedAt (tag.source ++ rest) = none := by
  have alpha := tag.first_alpha
  have heads : (tag.body ++ rest).head? ≠ some (unit '!') ∧
      (tag.body ++ rest).head? ≠ some (unit '?') := by
    unfold TagLike.body
    cases tag.closing with
    | true => exact ⟨by simp [unit], by simp [unit]⟩
    | false =>
        constructor
        · intro same
          rw [show tag.first = unit '!' by simpa using same] at alpha
          exact absurd alpha (by decide)
        · intro same
          rw [show tag.first = unit '?' by simpa using same] at alpha
          exact absurd alpha (by decide)
  obtain ⟨noComment, noInstruction⟩ := not_quoted heads.1 heads.2
  have noDeclaration : declarationAt (tag.body ++ rest) = none := by
    cases declared : declarationAt (tag.body ++ rest) with
    | none => rfl
    | some length => exact absurd (declarationAt_head declared) heads.1
  rw [TagLike.source, List.cons_append]
  unfold htmlLikeAt quotedAt
  simp only [if_true, noComment, noInstruction, noDeclaration, Option.or_none, Option.map_none,
    and_self]

/-! ### Scanning -/

private theorem htmlMatches_eq (rest : JsString) (position : Nat) :
    htmlMatches rest position = matchAll htmlLikeAt rest position := by
  fun_induction htmlMatches rest position with
  | case1 => rw [matchAll]
  | case2 position c tail length found inductionHypothesis =>
      rw [matchAll, found]
      simp only
      rw [inductionHypothesis]
  | case3 position c tail absent inductionHypothesis =>
      rw [matchAll, absent]
      exact inductionHypothesis

private theorem matchAll_later {matchAt : JsString → Option Nat} {rest : JsString}
    {position : Nat} {span : Nat × Nat} (member : span ∈ matchAll matchAt rest position) :
    position ≤ span.1 := by
  fun_induction matchAll matchAt rest position with
  | case1 => cases member
  | case2 position c tail length found inductionHypothesis =>
      rcases List.mem_cons.mp member with rfl | member
      · exact Nat.le_refl _
      · have := inductionHypothesis member
        omega
  | case3 position c tail absent inductionHypothesis =>
      have := inductionHypothesis member
      omega

/-- Where nothing matches at the first places, the scan starts after them. -/
private theorem matchAll_skip {matchAt : JsString → Option Nat} {rest : JsString}
    (position : Nat) {count : Nat} (inside : count ≤ rest.length)
    (absent : ∀ k < count, matchAt (rest.drop k) = none) :
    matchAll matchAt rest position = matchAll matchAt (rest.drop count) (position + count) := by
  induction count generalizing rest position with
  | zero => rfl
  | succ count inductionHypothesis =>
      cases rest with
      | nil => simp at inside
      | cons c tail =>
          have here : matchAt (c :: tail) = none := absent 0 (Nat.succ_pos _)
          rw [matchAll, here]
          simp only
          rw [inductionHypothesis (position + 1) (by simpa using inside)
            fun k less => absent (k + 1) (by omega)]
          rw [List.drop_succ_cons, Nat.add_assoc, Nat.add_comm 1 count]

/-! ### What a source without code has reported -/

/-- Nothing in a tag-like fragment before its last unit is a `>`. -/
private theorem source_inside (tag : TagLike) :
    ∃ inner, tag.source = inner ++ [unit '>'] ∧ unit '>' ∉ inner := by
  refine ⟨unit '<' :: ((if tag.closing then [unit '/'] else []) ++
    tag.first :: (tag.name ++ tag.attributes)), by simp [TagLike.source, TagLike.body], ?_⟩
  intro member
  simp only [List.mem_cons, List.mem_append] at member
  rcases member with opens | slash | first | named | valued
  · exact absurd opens (by decide)
  · cases shape : tag.closing with
    | true => simp [shape, unit] at slash
    | false => simp [shape] at slash
  · have alpha := tag.first_alpha
    rw [← first] at alpha
    exact absurd alpha (by decide)
  · exact absurd (tag.name_units _ named) (by decide)
  · exact tag.attributes_inside valued

/-- A `>` inside the fragment's reach is its last unit or stands after it. -/
private theorem closes_after {tag : TagLike} {s : JsString} {start place : Nat}
    (occurs : tag.source <+: s.drop start) (closes : s[place]? = some (unit '>'))
    (later : start ≤ place) : start + tag.source.length ≤ place + 1 := by
  obtain ⟨inner, split, noClose⟩ := source_inside tag
  obtain ⟨tail, whole⟩ := occurs
  by_contra before
  rw [split, List.length_append, List.length_singleton] at before
  have here : (s.drop start)[place - start]? = some (unit '>') := by
    rwa [List.getElem?_drop, Nat.add_sub_cancel' later]
  rw [← whole, split, List.append_assoc, List.getElem?_append_left (by omega)] at here
  exact noClose (List.mem_of_getElem? here)

@[simp] private theorem covers_cons {span : Nat × Nat} {spans : List (Nat × Nat)}
    {start stop : Nat} :
    Covers (span :: spans) start stop ↔
      (span.1 ≤ start ∧ stop ≤ span.1 + span.2) ∨ Covers spans start stop := by
  simp [Covers]

private theorem not_covers_before {matchAt : JsString → Option Nat} {rest : JsString}
    {position start stop : Nat} (before : start < position) :
    ¬ Covers (matchAll matchAt rest position) start stop := by
  rintro ⟨span, member, starts, _⟩
  have := matchAll_later member
  omega

private theorem length_pos_of_htmlLikeAt {s : JsString} {length : Nat}
    (found : htmlLikeAt s = some length) : 0 < length := by
  cases s with
  | nil => cases found
  | cons c tail =>
      unfold htmlLikeAt at found
      simp only at found
      split at found
      · obtain ⟨inner, _, rfl⟩ := Option.map_eq_some_iff.mp found
        exact Nat.succ_pos _
      · cases found

private theorem quotedAt_of_not_open {s : JsString} (closed : s.head? ≠ some (unit '<')) :
    quotedAt s = none := by
  cases s with
  | nil => rfl
  | cons c tail => exact if_neg fun same => closed (congrArg some same)

/-- A fragment that starts where a match starts is that match. -/
private theorem htmlLikeAt_source {tag : TagLike} {s : JsString} {length : Nat}
    (occurs : tag.source <+: s) (found : htmlLikeAt s = some length) :
    ¬ tag.InnerSlash ∧ length = tag.source.length := by
  obtain ⟨rest, rfl⟩ := occurs
  rw [(htmlLikeAt_tag tag rest).1] at found
  by_cases inner : tag.InnerSlash
  · rw [tagAt_of_innerSlash inner] at found
    cases found
  · rw [tagAt_of_not_innerSlash inner] at found
    cases found
    exact ⟨inner, rfl⟩

/-- A fragment that starts inside a match lies in a comment or an instruction. -/
private theorem quotedAt_of_inside {tag : TagLike} {s : JsString} {start length : Nat}
    (occurs : tag.source <+: s.drop start) (found : htmlLikeAt s = some length)
    (later : 0 < start) (inside : start < length) :
    quotedAt s = some length ∧ start + tag.source.length ≤ length := by
  rcases htmlLikeAt_cases found with quoted | ⟨_, noOpen⟩
  · obtain ⟨positive, closes⟩ := quotedAt_closes quoted
    have := closes_after occurs closes (by omega)
    exact ⟨quoted, by omega⟩
  · exfalso
    apply noOpen
    obtain ⟨rest, whole⟩ := occurs
    have here : s[start]? = some (unit '<') := by
      have first : (s.drop start)[0]? = some (unit '<') := by rw [← whole]; rfl
      rwa [List.getElem?_drop, Nat.add_zero] at first
    apply List.mem_of_getElem? (i := start - 1)
    rw [List.getElem?_tail, Nat.sub_add_cancel later, List.getElem?_take_of_lt inside, here]

/-- Past a match the scan for comments and instructions stands where the whole scan does. -/
private theorem covers_quoted_past {s : JsString} {length position start stop : Nat}
    (found : htmlLikeAt s = some length) (size : length ≤ s.length)
    (past : position + length ≤ start) (wide : start < stop) :
    Covers (matchAll quotedAt s position) start stop ↔
      Covers (matchAll quotedAt (s.drop length) (position + length)) start stop := by
  rcases htmlLikeAt_cases found with quoted | ⟨none, noOpen⟩
  · cases s with
    | nil => cases found
    | cons c tail =>
        obtain ⟨inner, rfl⟩ : ∃ inner, length = inner + 1 :=
          ⟨length - 1, (Nat.sub_add_cancel (length_pos_of_htmlLikeAt found)).symm⟩
        rw [matchAll, quoted]
        simp only [covers_cons, Nat.add_sub_cancel, List.drop_succ_cons]
        rw [← Nat.add_assoc] at past ⊢
        constructor
        · rintro (⟨_, ends⟩ | covered)
          · omega
          · exact covered
        · exact Or.inr
  · rw [matchAll_skip position size]
    intro k less
    cases k with
    | zero => exact none
    | succ k =>
        apply quotedAt_of_not_open
        intro opens
        apply noOpen
        rw [List.head?_drop] at opens
        apply List.mem_of_getElem? (i := k)
        rw [List.getElem?_tail, List.getElem?_take_of_lt less, opens]

/-- **What is found.** A tag-like fragment lies in a match exactly when its name is not
followed by an inner `/`, or it is part of a comment or processing instruction. -/
private theorem covers_iff {rest : JsString} (position : Nat) {tag : TagLike} {start : Nat}
    (occurs : tag.source <+: rest.drop start) :
    Covers (matchAll htmlLikeAt rest position) (position + start)
        (position + start + tag.source.length) ↔
      ¬ tag.InnerSlash ∨ Covers (matchAll quotedAt rest position) (position + start)
        (position + start + tag.source.length) := by
  have wide : 0 < tag.source.length := Nat.succ_pos _
  have size : start < rest.length := by
    by_contra beyond
    rw [List.drop_eq_nil_of_le (Nat.le_of_not_lt beyond)] at occurs
    exact absurd (List.prefix_nil.mp occurs) (List.cons_ne_nil _ _)
  fun_induction matchAll htmlLikeAt rest position generalizing start with
  | case1 => exact absurd size (Nat.not_lt_zero _)
  | case2 position c tail length found inductionHypothesis =>
      rw [covers_cons]
      rcases Nat.lt_or_ge start length with inside | past
      · rcases Nat.eq_zero_or_pos start with rfl | later
        · obtain ⟨plain, whole⟩ := htmlLikeAt_source occurs found
          rw [← whole]
          exact ⟨fun _ => Or.inl plain, fun _ => Or.inl ⟨Nat.le_refl _, Nat.le_refl _⟩⟩
        · obtain ⟨quoted, ends⟩ := quotedAt_of_inside occurs found later inside
          have reach : position ≤ position + start ∧
              position + start + tag.source.length ≤ position + length := by omega
          refine ⟨fun _ => Or.inr ?_, fun _ => Or.inl reach⟩
          rw [matchAll, quoted]
          exact covers_cons.mpr (Or.inl reach)
      · have positive := length_pos_of_htmlLikeAt found
        have onward : (c :: tail).drop length = tail.drop (length - 1) := by
          conv_lhs => rw [← Nat.sub_add_cancel positive, List.drop_succ_cons]
        have place : position + (length - 1) + 1 + (start - length) = position + start := by omega
        have occursLater : tag.source <+: (tail.drop (length - 1)).drop (start - length) := by
          rw [← onward, List.drop_drop, Nat.add_sub_cancel' past]
          exact occurs
        have sizeLater : start - length < (tail.drop (length - 1)).length := by
          rw [List.length_cons] at size
          rw [List.length_drop]
          omega
        have step := inductionHypothesis occursLater sizeLater
        rw [place, show position + (length - 1) + 1 = position + length by omega] at step
        rw [covers_quoted_past found (by omega) (by omega) (by omega), onward,
          show position + (length - 1) + 1 = position + length by omega]
        constructor
        · rintro (⟨_, ends⟩ | covered)
          · omega
          · exact step.mp covered
        · exact fun covered => Or.inr (step.mpr covered)
  | case3 position c tail absent inductionHypothesis =>
      have same : matchAll quotedAt (c :: tail) position = matchAll quotedAt tail (position + 1) := by
        rw [matchAll, quotedAt_of_not_html absent]
      rw [same]
      cases start with
      | zero =>
          have inner : tag.InnerSlash := by
            by_contra plain
            obtain ⟨more, whole⟩ := occurs
            rw [List.drop_zero] at whole
            rw [← whole, (htmlLikeAt_tag tag more).1, tagAt_of_not_innerSlash plain] at absent
            cases absent
          constructor
          · exact fun covered => absurd covered (not_covers_before (by omega))
          · rintro (plain | covered)
            · exact absurd inner plain
            · exact absurd covered (not_covers_before (by omega))
      | succ start =>
          have size : start < tail.length := by simpa using size
          have step := inductionHypothesis occurs size
          rwa [show position + 1 + start = position + (start + 1) by omega] at step

private theorem htmlMatches_opens {rest : JsString} {position : Nat} {found : Nat × Nat}
    (member : found ∈ matchAll htmlLikeAt rest position) :
    rest[found.1 - position]? = some (unit '<') := by
  fun_induction matchAll htmlLikeAt rest position with
  | case1 => cases member
  | case2 position c tail length here inductionHypothesis =>
      rcases List.mem_cons.mp member with rfl | member
      · unfold htmlLikeAt at here
        simp only at here
        split at here
        · rename_i opens
          rw [Nat.sub_self, opens]
          rfl
        · cases here
      · have later := matchAll_later member
        have step := inductionHypothesis member
        rw [List.getElem?_drop] at step
        rw [show found.1 - position = length - 1 + (found.1 - (position + (length - 1) + 1)) + 1 by
          omega]
        exact step
  | case3 position c tail absent inductionHypothesis =>
      have later := matchAll_later member
      have step := inductionHypothesis member
      rw [show found.1 - position = found.1 - (position + 1) + 1 by omega]
      exact step

private theorem rawHtmlFinding_line (source : JsString) (start length : Nat) :
    (rawHtmlFinding source start length).line = 1 + (source.take start).count (unit '\n') := by
  show (splitOn (unit '\n') (slice source 0 start)).length = _
  rw [length_splitOn, slice, List.drop_zero, Nat.add_comm]

/-- **Every tag-like fragment is reported, on its line,** exactly when each one whose name
is followed by an inner `/` is part of a comment or a processing instruction. -/
theorem findRawHtml_complete {source : JsString} (noTick : unit '`' ∉ source)
    (noTilde : unit '~' ∉ source) :
    FullyReported source ↔
      ∀ (tag : TagLike) (start : Nat), tag.source <+: source.drop start → tag.InnerSlash →
        Covers (quotations source) start (start + tag.source.length) := by
  have mask := maskCode_absent noTick noTilde
  have scanned : htmlMatches (maskCode source) 0 = matchAll htmlLikeAt source 0 := by
    rw [mask, htmlMatches_eq]
  constructor
  · intro reported tag start occurs inner
    obtain ⟨found, member, starts, ends, _⟩ := reported.covered tag start occurs
    rw [scanned] at member
    have covered := (covers_iff 0 occurs).mp (by
      rw [Nat.zero_add]
      exact ⟨found, member, starts, ends⟩)
    rw [Nat.zero_add] at covered
    exact covered.resolve_left fun plain => plain inner
  · intro quoted
    refine ⟨fun tag start occurs => ?_, fun finding member => ?_⟩
    · have covered := (covers_iff 0 occurs).mpr (by
        rw [Nat.zero_add]
        by_cases inner : tag.InnerSlash
        · exact Or.inr (quoted tag start occurs inner)
        · exact Or.inl inner)
      rw [Nat.zero_add] at covered
      obtain ⟨found, member, starts, ends⟩ := covered
      rw [← scanned] at member
      exact ⟨found, member, starts, ends, List.mem_map_of_mem member⟩
    · obtain ⟨found, matched, rfl⟩ := List.mem_map.mp member
      refine ⟨found, matched, rfl, ?_, rawHtmlFinding_line source found.1 found.2⟩
      rw [scanned] at matched
      exact htmlMatches_opens matched

theorem findRawHtml_complete_example : FullyReported (js "a <b>") := by
  apply (findRawHtml_complete (by decide) (by decide)).mpr
  rintro tag start ⟨rest, whole⟩ ⟨slash, _⟩
  have inTag : unit '/' ∈ tag.source := by
    have : unit '/' ∈ tag.attributes := List.mem_of_mem_head? slash
    simp [TagLike.source, TagLike.body, this]
  have inSource : unit '/' ∈ (js "a <b>").drop start := by
    rw [← whole]
    exact List.mem_append_left _ inTag
  exact absurd (List.mem_of_mem_drop inSource) (by decide)

/-- A tag whose attributes follow a `/` is not reported. -/
theorem inner_slash_unreported :
    ¬ ∀ source, unit '`' ∉ source → unit '~' ∉ source → FullyReported source := by
  intro claimed
  let tag : TagLike :=
    { closing := false, first := unit 's', name := js "vg", attributes := js "/onload=x"
      first_alpha := by decide
      name_units := List.all_eq_true.mp (by decide)
      attributes_start := fun c first => .inr (Option.some.inj first).symm
      attributes_open := by decide
      attributes_inside := by decide }
  have reported := claimed tag.source (by decide) (by decide)
  obtain ⟨found, member, _⟩ := reported.covered tag 0 List.prefix_rfl
  have none : htmlMatches (maskCode tag.source) 0 = [] := by decide +kernel
  rw [none] at member
  cases member

end Assaybank.Markdown
