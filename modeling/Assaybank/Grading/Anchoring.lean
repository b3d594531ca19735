import Assaybank.Grading.Compare
import Assaybank.Runtime.RegExp.Anchored

/-!
Owns what a regular expression as an answer key passes: the pattern is anchored, so that it
describes the whole output and not a fragment of it (`packages/grading/src/compare.ts`).

Contract: the engine compiles and matches as the language says; only its tables of Unicode
are a parameter. With `m` the anchors stand at lines, and a line of the output is enough.
-/

namespace Assaybank.Grading

open Assaybank.Runtime Assaybank.Library
open RegExp (Flags Tables Compiled compile wrapped anchored)

/-- The flags of a text of flags. -/
def flagsOf (flags : JsString) : Flags where
  ignoreCase := flags.contains (unit 'i')
  multiline := flags.contains (unit 'm')
  dotAll := flags.contains (unit 's')
  unicode := flags.contains (unit 'u')

/-- `new RegExp(pattern, flags)` and its `test`. -/
def scriptEngine (tables : Tables) (toLowerCase : JsString → JsString) : TextEngine where
  toLowerCase := toLowerCase
  regExp := fun pattern flags =>
    (compile tables (flagsOf flags) pattern).map (·.test tables (flagsOf flags))

/-- `opts?.regexFlags ?? ''`. -/
def regexFlagsOf (opts : Option CompareOptions) : JsString := (opts.bind (·.regexFlags)).getD []

/-- The flags an answer key may ask for: each at most once, and only the four. -/
def AdmittedFlags (flags : JsString) : Prop :=
  flags.Nodup ∧ ∀ flag ∈ flags, flag ∈ ALLOWED_REGEX_FLAGS

instance (flags : JsString) : Decidable (AdmittedFlags flags) :=
  @instDecidableAnd _ _ (List.nodupDecidable flags)
    (List.decidableBAll (· ∈ ALLOWED_REGEX_FLAGS) flags)

/-- A pattern is compared when it is neither empty nor too long. -/
def ComparedLength (pattern : JsString) : Prop :=
  pattern.length ≠ 0 ∧ pattern.length ≤ MAX_PATTERN_LENGTH

instance (pattern : JsString) : Decidable (ComparedLength pattern) :=
  inferInstanceAs (Decidable (pattern.length ≠ 0 ∧ pattern.length ≤ MAX_PATTERN_LENGTH))

section Anchored

variable {tables : Tables} {toLowerCase : JsString → JsString} {pattern actual : JsString}
  {opts : Option CompareOptions} {compiled : Compiled}

private theorem admitted_guards (admitted : AdmittedFlags (regexFlagsOf opts)) :
    (distinct (regexFlagsOf opts)).length = (regexFlagsOf opts).length ∧
      ((regexFlagsOf opts).any fun flag => !ALLOWED_REGEX_FLAGS.contains flag) = false := by
  obtain ⟨once, allowed⟩ := admitted
  constructor
  · rw [distinct, List.length_reverse, (List.nodup_reverse.mpr once).dedup, List.length_reverse]
  · rw [List.any_eq_false]
    intro flag member refused
    rw [List.contains_iff_mem.mpr (allowed flag member)] at refused
    cases refused

/-- With any of the flags, what passes is a pattern that matches from a start of a line of the
normalised output to an end of one. -/
theorem compareRegex_lines (admitted : AdmittedFlags (regexFlagsOf opts))
    (compiles : compile tables (flagsOf (regexFlagsOf opts)) pattern = some compiled) :
    (compareRegex (scriptEngine tables toLowerCase) pattern actual opts).passed = true ↔
      ComparedLength pattern ∧
        compiled.MatchesLines tables (flagsOf (regexFlagsOf opts)) (normalise actual) := by
  obtain ⟨once, allowed⟩ := admitted_guards admitted
  have anchors : (scriptEngine tables toLowerCase).regExp (js "^(?:" ++ pattern ++ js ")$")
      (regexFlagsOf opts) = some ((Compiled.mk (anchored compiled.node) compiled.names).test tables
        (flagsOf (regexFlagsOf opts))) := by
    show (compile tables _ (wrapped pattern)).map _ = _
    rw [RegExp.compile_wrapped compiles]
    rfl
  rw [compareRegex, ← RegExp.test_anchored]
  rw [← regexFlagsOf]
  by_cases refused : pattern.length = 0 ∨ MAX_PATTERN_LENGTH < pattern.length
  · rw [if_pos refused, outcome_passed]
    constructor
    · intro impossible
      cases impossible
    · rintro ⟨⟨nonempty, short⟩, _⟩
      rcases refused with empty | long
      · exact absurd empty nonempty
      · exact absurd short (Nat.not_le.mpr long)
  · rw [if_neg refused, if_neg (fun distinctly => distinctly once), allowed,
      if_neg Bool.false_ne_true, anchors]
    have compared : ComparedLength pattern :=
      ⟨fun empty => refused (.inl empty), Nat.not_lt.mp fun long => refused (.inr long)⟩
    rw [outcome_passed]
    split
    · rename_i matched
      exact iff_of_true rfl ⟨compared, matched⟩
    · rename_i unmatched
      exact iff_of_false (fun same => by cases same) fun both => unmatched both.2

/-- Without `m` a pattern that compiles on its own passes an output exactly when its length is
within the bounds and it matches the normalised output from the first character to the last. -/
theorem compareRegex_whole (admitted : AdmittedFlags (regexFlagsOf opts))
    (single : unit 'm' ∉ regexFlagsOf opts)
    (compiles : compile tables (flagsOf (regexFlagsOf opts)) pattern = some compiled) :
    (compareRegex (scriptEngine tables toLowerCase) pattern actual opts).passed = true ↔
      ComparedLength pattern ∧
        compiled.MatchesWhole tables (flagsOf (regexFlagsOf opts)) (normalise actual) := by
  have oneLine : (flagsOf (regexFlagsOf opts)).multiline = false := by
    rw [flagsOf, Bool.eq_false_iff]
    exact fun named => single (List.contains_iff_mem.mp named)
  rw [compareRegex_lines admitted compiles, RegExp.matchesLines_iff_matchesWhole oneLine]

end Anchored

/-! ### Patterns that are refused, and `m` -/

/-- What Unicode says of ASCII. -/
def plainTables : Tables where
  canonicalize := fun unicode code =>
    if unicode then if 0x41 ≤ code ∧ code ≤ 0x5A then code + 0x20 else code
    else if 0x61 ≤ code ∧ code ≤ 0x7A then code - 0x20 else code
  property := fun _ => none
  isIdStart := fun code => decide (code < 0x80) && isAlpha code.toUInt16
  isIdPart := fun code =>
    decide (code < 0x80) && (isAlpha code.toUInt16 || isDigit code.toUInt16)

/-- A key of a letter, a group that is repeated, and a digit. -/
private theorem letterKey_compiles :
    (compile plainTables (flagsOf (js "i")) (js "a(b|C)*\\d")).isSome = true := by
  decide +kernel

theorem compareRegex_whole_example :
    (compareRegex (scriptEngine plainTables (List.map lowerAscii)) (js "a(b|C)*\\d")
      (js " AbC7 \n") (some ⟨none, none, some (js "i")⟩)).passed = true := by
  have admitted : AdmittedFlags (regexFlagsOf (some ⟨none, none, some (js "i")⟩)) := by
    decide +kernel
  have compiles := (Option.some_get letterKey_compiles).symm
  exact (compareRegex_whole admitted (by decide +kernel) compiles).mpr (by decide +kernel)

private theorem letter_compiles :
    (compile plainTables (flagsOf (js "")) (js "a")).isSome = true := by
  decide +kernel

private theorem empty_compiles :
    (compile plainTables (flagsOf (js "")) (js "")).isSome = true := by
  decide +kernel

private theorem lines_compile :
    (compile plainTables (flagsOf (js "m")) (js "a")).isSome = true := by
  decide +kernel

/-- Groups inside groups: a pattern of any length that matches the one letter. -/
private theorem nested_matches (depth : Nat) :
    ∃ compiled, compile plainTables (flagsOf (js "")) (wrapped^[depth] (js "a")) = some compiled ∧
      compiled.MatchesWhole plainTables (flagsOf (js "")) (js "a") := by
  induction depth with
  | zero =>
      exact ⟨_, (Option.some_get letter_compiles).symm, by decide +kernel⟩
  | succ depth inductionHypothesis =>
      obtain ⟨compiled, compiles, whole⟩ := inductionHypothesis
      rw [Function.iterate_succ_apply']
      exact ⟨_, RegExp.compile_wrapped compiles, RegExp.matchesWhole_anchored.mpr whole⟩

private theorem length_nested (depth : Nat) :
    (wrapped^[depth] (js "a")).length = 6 * depth + 1 := by
  induction depth with
  | zero => rfl
  | succ depth inductionHypothesis =>
      rw [Function.iterate_succ_apply', wrapped, List.length_append, List.length_append,
        inductionHypothesis]
      show 4 + (6 * depth + 1) + 2 = _
      omega

/-- What a comparison with a pattern that compiles should say. -/
def PassesWhole (pattern flags actual : JsString) : Prop :=
  ∀ compiled, compile plainTables (flagsOf flags) pattern = some compiled →
    ((compareRegex (scriptEngine plainTables (List.map lowerAscii)) pattern actual
        (some ⟨none, none, some flags⟩)).passed = true ↔
      compiled.MatchesWhole plainTables (flagsOf flags) (normalise actual))

/-- A pattern that is empty or too long compiles on its own and fails what it matches, and with
`m` a pattern passes an output for one of its lines. -/
theorem lengths_refused_line_passes :
    ¬PassesWhole (js "") (js "") (js "") ∧ ¬PassesWhole (wrapped^[700] (js "a")) (js "") (js "a") ∧
      ¬PassesWhole (js "a") (js "m") (js "a\nb") := by
  refine ⟨?_, ?_, ?_⟩
  · intro passes
    have passed := (passes _ (Option.some_get empty_compiles).symm).mpr (by decide +kernel)
    exact absurd passed (by decide +kernel)
  · intro passes
    obtain ⟨compiled, compiles, whole⟩ := nested_matches 700
    have normal : normalise (js "a") = js "a" := by decide +kernel
    have passed := (passes compiled compiles).mpr (normal.symm ▸ whole)
    have short := ((compareRegex_lines (by decide +kernel) compiles).mp passed).1.2
    rw [length_nested] at short
    exact absurd short (by decide)
  · intro passes
    have whole := (passes _ (Option.some_get lines_compile).symm).mp (by decide +kernel)
    exact absurd whole (by decide +kernel)

end Assaybank.Grading
