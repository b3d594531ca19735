import Assaybank.Library.OrderedMap
import Assaybank.Runtime.Number

/-!
Owns the comparison of one expectation with one observed value
(`packages/grading/src/compare.ts`).

Contract: `compareCase` is total. Case folding and regular expressions are the runtime's, over all
of Unicode and for arbitrary patterns: the comparison takes them from a `TextEngine`.
-/

namespace Assaybank.Grading

open Assaybank.Runtime Assaybank.Library

/-- What a comparison takes from the runtime. -/
structure TextEngine where
  toLowerCase : JsString → JsString
  /-- `new RegExp(pattern, flags)`, with the `test` of what was compiled; `none` where it throws. -/
  regExp : JsString → JsString → Option (JsString → Bool)

inductive GradingMode where
  | exact
  | trimmed
  | caseInsensitive
  | numericTolerance
  | regex
deriving DecidableEq, Repr

structure CompareOptions where
  /-- Defaults to `1e-9`. -/
  absoluteTolerance : Option JsDouble
  /-- Defaults to zero. -/
  relativeTolerance : Option JsDouble
  regexFlags : Option JsString

/-- Why a comparison came out the way it did. -/
inductive CaseOutcomeReason where
  | match
  | mismatch
  | lengthMismatch
  | notANumber
  | invalidTolerance
  | invalidPattern
deriving DecidableEq, Repr

structure CaseOutcome where
  passed : Bool
  mode : GradingMode
  reason : CaseOutcomeReason
deriving DecidableEq, Repr

def MAX_PATTERN_LENGTH : Nat := 4096

def DEFAULT_ABSOLUTE_TOLERANCE : JsDouble := .ofRat (1 / 10 ^ 9)

def DEFAULT_RELATIVE_TOLERANCE : JsDouble := .finite 0

def ALLOWED_REGEX_FLAGS : List CodeUnit := [unit 'i', unit 'm', unit 's', unit 'u']

def outcome (mode : GradingMode) (reason : CaseOutcomeReason) : CaseOutcome :=
  ⟨decide (reason = .match), mode, reason⟩

/-- One newline convention, each line trimmed, and no blank line at either end. -/
def normalise (text : JsString) : JsString :=
  let lines := (splitOn (unit '\n') (normaliseNewlines text)).map trim
  let joined := joinWith [unit '\n'] lines
  (joined.dropWhile (· == unit '\n')).rdropWhile (· == unit '\n')

/-- `replace(/\s+/gu, ' ')`. -/
def collapseSpace : JsString → JsString
  | [] => []
  | [c] => if isSpace c then [unit ' '] else [c]
  | c :: d :: rest =>
      if isSpace c then
        if isSpace d then collapseSpace (d :: rest) else unit ' ' :: collapseSpace (d :: rest)
      else c :: collapseSpace (d :: rest)

def tokenise (text : JsString) : List JsString :=
  let normalised := collapseSpace (normalise text)
  if normalised.length = 0 then [] else splitOn (unit ' ') normalised

/-- The number a token denotes, which an infinity is. -/
def parseNumber (token : JsString) : Option JsDouble :=
  if token.length = 0 then none
  else
    match readNumber token with
    | .nan => none
    | value => some value

def withinTolerance (expected actual : JsDouble) (absolute relative : ℚ) : Bool :=
  if strictEquals expected actual then true
  else
    match expected, actual with
    | .finite expected, .finite actual =>
        let difference := (JsDouble.ofRat (expected - actual)).abs
        if difference.le (.finite absolute) then true
        else if 0 < relative then difference.le (.ofRat (relative * max |expected| |actual|))
        else false
    | _, _ => false

/-- The loop over the tokens of both sides. -/
def compareTokens (absolute relative : ℚ) : List JsString → List JsString → CaseOutcomeReason
  | [], _ => .match
  | _ :: _, [] => .lengthMismatch
  | expectedToken :: expectedTokens, actualToken :: actualTokens =>
      match parseNumber expectedToken, parseNumber actualToken with
      | some expectedValue, some actualValue =>
          if withinTolerance expectedValue actualValue absolute relative then
            compareTokens absolute relative expectedTokens actualTokens
          else .mismatch
      | _, _ => .notANumber

/-- A tolerance that is finite and not negative. -/
def toleranceOf : JsDouble → Option ℚ
  | .finite value => if value < 0 then none else some value
  | _ => none

/-- `opts?.absoluteTolerance ?? DEFAULT_ABSOLUTE_TOLERANCE`. -/
def absoluteOf (opts : Option CompareOptions) : JsDouble :=
  (opts.bind (·.absoluteTolerance)).getD DEFAULT_ABSOLUTE_TOLERANCE

/-- `opts?.relativeTolerance ?? DEFAULT_RELATIVE_TOLERANCE`. -/
def relativeOf (opts : Option CompareOptions) : JsDouble :=
  (opts.bind (·.relativeTolerance)).getD DEFAULT_RELATIVE_TOLERANCE

def compareNumeric (expected actual : JsString) (opts : Option CompareOptions) : CaseOutcome :=
  match toleranceOf (absoluteOf opts), toleranceOf (relativeOf opts) with
  | some absolute, some relative =>
      let expectedTokens := tokenise expected
      let actualTokens := tokenise actual
      if expectedTokens.length ≠ actualTokens.length then outcome .numericTolerance .lengthMismatch
      else outcome .numericTolerance (compareTokens absolute relative expectedTokens actualTokens)
  | _, _ => outcome .numericTolerance .invalidTolerance

def compareRegex (engine : TextEngine) (expected actual : JsString)
    (opts : Option CompareOptions) : CaseOutcome :=
  let flags := (opts.bind (·.regexFlags)).getD []
  if expected.length = 0 ∨ MAX_PATTERN_LENGTH < expected.length then
    outcome .regex .invalidPattern
  else if (distinct flags).length ≠ flags.length then outcome .regex .invalidPattern
  else if flags.any fun flag => !ALLOWED_REGEX_FLAGS.contains flag then
    outcome .regex .invalidPattern
  else
    match engine.regExp (js "^(?:" ++ expected ++ js ")$") flags with
    | none => outcome .regex .invalidPattern
    | some test => outcome .regex (if test (normalise actual) then .match else .mismatch)

def compareCase (engine : TextEngine) (mode : GradingMode) (expected actual : JsString)
    (opts : Option CompareOptions) : CaseOutcome :=
  match mode with
  | .exact => outcome .exact (if expected = actual then .match else .mismatch)
  | .trimmed => outcome .trimmed (if normalise expected = normalise actual then .match else .mismatch)
  | .caseInsensitive =>
      outcome .caseInsensitive
        (if engine.toLowerCase (normalise expected) = engine.toLowerCase (normalise actual) then
          .match
        else .mismatch)
  | .numericTolerance => compareNumeric expected actual opts
  | .regex => compareRegex engine expected actual opts

section Outcome

variable {mode : GradingMode} {reason : CaseOutcomeReason}

@[simp] theorem outcome_mode : (outcome mode reason).mode = mode := rfl

@[simp] theorem outcome_passed : (outcome mode reason).passed = true ↔ reason = .match := by
  simp [outcome]

end Outcome

/-- A verdict names the mode it was asked for. -/
theorem compareCase_mode (engine : TextEngine) (mode : GradingMode) (expected actual : JsString)
    (opts : Option CompareOptions) : (compareCase engine mode expected actual opts).mode = mode := by
  cases mode with
  | exact => rfl
  | trimmed => rfl
  | caseInsensitive => rfl
  | numericTolerance =>
      simp only [compareCase, compareNumeric]
      split
      · split_ifs <;> rfl
      · rfl
  | regex =>
      simp only [compareCase, compareRegex]
      split_ifs
      · rfl
      · rfl
      · rfl
      · split <;> rfl

example : (compareNumeric (js "1 2.50") (js " 1.0\n2.5 ") .none).passed = true := by decide +kernel

example : (compareNumeric (js "1e400") (js "Infinity") .none).passed = true := by decide +kernel

end Assaybank.Grading
