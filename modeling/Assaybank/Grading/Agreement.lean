import Assaybank.Grading.Compare
import Assaybank.Runtime.Lines

/-!
Owns how the comparison modes relate (`packages/grading/src/compare.ts`).

Contract: normalising twice is normalising once (`normalise_normalise`), so each textual mode
compares by the value of a function and the three are finer and coarser equivalences. The numeric
mode looks at both sides alike and passes no less for larger finite tolerances
(`agreement_laws`); an infinite tolerance it refuses (`infinite_tolerance_refused`). Its arithmetic
is that of doubles, overflow included.
-/

namespace Assaybank.Grading

open Assaybank.Runtime Assaybank.Library

/-! ### Normalised text -/

/-- A text whose lines are trimmed, with no carriage return and no blank line at either end. -/
private theorem normalise_eq_self {text : JsString} (clean : ∀ c ∈ text, c ≠ unit '\r')
    (trimmed : ∀ line ∈ splitOn (unit '\n') text, trim line = line)
    (start : text.dropWhile (· == unit '\n') = text)
    (stop : text.rdropWhile (· == unit '\n') = text) : normalise text = text := by
  have same : (splitOn (unit '\n') text).map trim = splitOn (unit '\n') text := by
    calc
      (splitOn (unit '\n') text).map trim = (splitOn (unit '\n') text).map id :=
        List.map_congr_left trimmed
      _ = splitOn (unit '\n') text := List.map_id _
  have joined : joinWith [unit '\n'] (splitOn (unit '\n') text) = text :=
    List.intercalate_splitOn (unit '\n')
  rw [normalise, normaliseNewlines_eq_self clean, same, joined]
  show ((text.dropWhile (· == unit '\n')).rdropWhile (· == unit '\n')) = text
  rw [start, stop]

theorem normalise_normalise (text : JsString) : normalise (normalise text) = normalise text := by
  let lines := (splitOn (unit '\n') (normaliseNewlines text)).map trim
  have lineOf : ∀ line ∈ lines, trim line = line ∧ ∀ c ∈ line, c ≠ unit '\n' ∧ c ≠ unit '\r' := by
    intro line inside
    obtain ⟨raw, member, rfl⟩ := List.mem_map.mp inside
    refine ⟨trim_trim raw, ?_⟩
    intro c here
    obtain ⟨noNewline, kept⟩ := mem_of_mem_splitOn member c (mem_of_mem_trim here)
    exact ⟨noNewline, not_return_mem_normaliseNewlines text c kept⟩
  have nonempty : lines ≠ [] := by
    rw [Ne, List.map_eq_nil_iff]
    exact List.splitOn_ne_nil _ _
  have split : splitOn (unit '\n') (joinWith [unit '\n'] lines) = lines :=
    List.splitOn_intercalate (unit '\n') (fun line inside newline =>
      ((lineOf line inside).2 _ newline).1 rfl) nonempty
  have inLines : ∀ line ∈ splitOn (unit '\n') (normalise text), line ∈ lines := by
    intro line inside
    rw [← split]
    exact mem_splitOn_dropWhile (mem_splitOn_rdropWhile inside)
  have noReturn : ∀ c ∈ normalise text, c ≠ unit '\r' := by
    intro c inside
    have joined : c ∈ joinWith [unit '\n'] lines :=
      (List.dropWhile_sublist _).subset ((List.rdropWhile_prefix _ _).subset inside)
    rcases mem_of_mem_joinWith joined with newline | ⟨line, member, here⟩
    · rw [newline]
      decide
    · exact ((lineOf line member).2 c here).2
  apply normalise_eq_self noReturn
  · intro line inside
    exact (lineOf line (inLines line inside)).1
  · exact dropWhile_trimmed _
  · exact List.rdropWhile_idempotent _ _

/-! ### Symmetry -/

theorem strictEquals_comm (left right : JsDouble) :
    strictEquals left right = strictEquals right left := by
  cases left with
  | finite value =>
      cases right with
      | finite other => simp only [strictEquals, eq_comm]
      | infinite negative => rfl
      | nan => rfl
  | infinite negative =>
      cases right with
      | finite other => rfl
      | infinite other => exact Bool.beq_comm
      | nan => rfl
  | nan =>
      cases right with
      | finite other => rfl
      | infinite negative => rfl
      | nan => rfl

theorem withinTolerance_comm (expected actual : JsDouble) (absolute relative : ℚ) :
    withinTolerance expected actual absolute relative =
      withinTolerance actual expected absolute relative := by
  unfold withinTolerance
  rw [strictEquals_comm]
  cases expected with
  | finite left =>
      cases actual with
      | finite right =>
          have swapped : (JsDouble.ofRat (left - right)).abs = (JsDouble.ofRat (right - left)).abs := by
            rw [← neg_sub right left, JsDouble.abs_ofRat_neg]
          simp only [swapped, max_comm |left| |right|]
      | infinite negative => rfl
      | nan => rfl
  | infinite negative => cases actual <;> rfl
  | nan => cases actual <;> rfl

theorem compareTokens_comm (absolute relative : ℚ) (expected actual : List JsString)
    (same : expected.length = actual.length) :
    compareTokens absolute relative expected actual =
      compareTokens absolute relative actual expected := by
  induction expected generalizing actual with
  | nil =>
      cases actual with
      | nil => rfl
      | cons other later => cases same
  | cons first rest inductionHypothesis =>
      cases actual with
      | nil => cases same
      | cons other later =>
          rw [compareTokens, compareTokens]
          cases left : parseNumber first with
          | none =>
              cases right : parseNumber other with
              | none => rfl
              | some value => rfl
          | some value =>
              cases right : parseNumber other with
              | none => rfl
              | some second =>
                  simp only [withinTolerance_comm value second,
                    inductionHypothesis later (Nat.succ.inj same)]

/-- Neither side of a numeric comparison is special. -/
theorem compareNumeric_comm (expected actual : JsString) (opts : Option CompareOptions) :
    compareNumeric expected actual opts =
      compareNumeric actual expected opts := by
  unfold compareNumeric
  cases toleranceOf (absoluteOf opts) with
  | none => rfl
  | some absolute =>
      cases toleranceOf (relativeOf opts) with
      | none => rfl
      | some relative =>
          dsimp only
          by_cases lengths : (tokenise expected).length = (tokenise actual).length
          · rw [if_neg (not_not_intro lengths), if_neg (not_not_intro lengths.symm),
              compareTokens_comm absolute relative _ _ lengths]
          · rw [if_pos lengths, if_pos (Ne.symm lengths)]

/-! ### Larger tolerances -/

section Tolerances

variable {absolute relative wider looser : ℚ}

theorem withinTolerance_mono {expected actual : JsDouble} (more : absolute ≤ wider)
    (looserThan : relative ≤ looser)
    (within : withinTolerance expected actual absolute relative = true) :
    withinTolerance expected actual wider looser = true := by
  unfold withinTolerance at within ⊢
  split at within
  · rename_i equal
    rw [if_pos equal]
  · rename_i unequal
    rw [if_neg unequal]
    cases expected with
    | infinite negative => cases within
    | nan => cases within
    | finite left =>
        cases actual with
        | infinite negative => cases within
        | nan => cases within
        | finite right =>
            dsimp only at within ⊢
            by_cases near : (JsDouble.ofRat (left - right)).abs.le (.finite wider) = true
            · rw [if_pos near]
            · rw [if_neg near]
              rw [if_neg fun nearer =>
                near (JsDouble.le_trans nearer (JsDouble.le_finite.mpr more))] at within
              by_cases positive : 0 < relative
              · rw [if_pos positive] at within
                rw [if_pos (positive.trans_le looserThan)]
                have magnitude : 0 ≤ max |left| |right| := (abs_nonneg left).trans (le_max_left _ _)
                exact JsDouble.le_trans within
                  (JsDouble.ofRat_mono (mul_le_mul_of_nonneg_right looserThan magnitude))
              · rw [if_neg positive] at within
                cases within

theorem compareTokens_mono {expected actual : List JsString} (more : absolute ≤ wider)
    (looserThan : relative ≤ looser)
    (passed : compareTokens absolute relative expected actual = .match) :
    compareTokens wider looser expected actual = .match := by
  induction expected generalizing actual with
  | nil => rfl
  | cons first rest inductionHypothesis =>
      cases actual with
      | nil => cases passed
      | cons other later =>
          rw [compareTokens] at passed ⊢
          cases left : parseNumber first with
          | none =>
              rw [left] at passed
              cases passed
          | some value =>
              cases right : parseNumber other with
              | none =>
                  rw [left, right] at passed
                  cases passed
              | some second =>
                  rw [left, right] at passed
                  dsimp only at passed ⊢
                  by_cases within : withinTolerance value second absolute relative = true
                  · rw [if_pos within] at passed
                    rw [if_pos (withinTolerance_mono more looserThan within)]
                    exact inductionHypothesis passed
                  · rw [if_neg within] at passed
                    cases passed

private theorem toleranceOf_eq_some {tolerance : JsDouble} {value : ℚ} :
    toleranceOf tolerance = some value ↔ tolerance = .finite value ∧ 0 ≤ value := by
  cases tolerance with
  | finite given =>
      rw [toleranceOf]
      by_cases negative : given < 0
      · rw [if_pos negative]
        constructor
        · intro impossible
          cases impossible
        · rintro ⟨same, nonnegative⟩
          cases same
          exact absurd negative (not_lt.mpr nonnegative)
      · rw [if_neg negative]
        constructor
        · intro same
          cases same
          exact ⟨rfl, not_lt.mp negative⟩
        · rintro ⟨same, _⟩
          cases same
          rfl
  | infinite negative => exact iff_of_false (fun same => nomatch same) (fun ⟨same, _⟩ => nomatch same)
  | nan => exact iff_of_false (fun same => nomatch same) (fun ⟨same, _⟩ => nomatch same)

/-- A tolerance that is finite and no smaller than one that is used is used as well. -/
private theorem toleranceOf_larger {tolerance larger : JsDouble} {value : ℚ}
    (used : toleranceOf tolerance = some value) (finite : larger.isFinite = true)
    (ordered : tolerance.le larger = true) : ∃ more, toleranceOf larger = some more ∧ value ≤ more := by
  obtain ⟨same, nonnegative⟩ := toleranceOf_eq_some.mp used
  obtain ⟨more, isMore⟩ := JsDouble.isFinite_iff.mp finite
  rw [same, isMore, JsDouble.le_finite] at ordered
  exact ⟨more, toleranceOf_eq_some.mpr ⟨isMore, nonnegative.trans ordered⟩, ordered⟩

/-- Larger finite tolerances never turn a pass into a fail. -/
theorem compareNumeric_mono {expected actual : JsString} {opts larger : Option CompareOptions}
    (absoluteFinite : (absoluteOf larger).isFinite = true)
    (relativeFinite : (relativeOf larger).isFinite = true)
    (absoluteOrdered : (absoluteOf opts).le (absoluteOf larger) = true)
    (relativeOrdered : (relativeOf opts).le (relativeOf larger) = true)
    (passed : (compareNumeric expected actual opts).passed = true) :
    (compareNumeric expected actual larger).passed = true := by
  unfold compareNumeric at passed ⊢
  cases absoluteUsed : toleranceOf (absoluteOf opts) with
  | none =>
      rw [absoluteUsed] at passed
      cases passed
  | some absolute =>
      cases relativeUsed : toleranceOf (relativeOf opts) with
      | none =>
          rw [absoluteUsed, relativeUsed] at passed
          cases passed
      | some relative =>
          obtain ⟨wider, wide, more⟩ :=
            toleranceOf_larger absoluteUsed absoluteFinite absoluteOrdered
          obtain ⟨looser, loose, looserThan⟩ :=
            toleranceOf_larger relativeUsed relativeFinite relativeOrdered
          rw [absoluteUsed, relativeUsed] at passed
          rw [wide, loose]
          dsimp only at passed ⊢
          split at passed
          · cases passed
          · rename_i lengths
            rw [if_neg lengths, outcome_passed]
            exact compareTokens_mono more looserThan (outcome_passed.mp passed)

end Tolerances

/-! ### The laws of agreement -/

/-- Expected and actual agree in a mode. -/
def Agrees (engine : TextEngine) (mode : GradingMode) (opts : Option CompareOptions)
    (expected actual : JsString) : Prop :=
  (compareCase engine mode expected actual opts).passed = true

section Modes

variable (engine : TextEngine) (opts : Option CompareOptions) (expected actual : JsString)

theorem agrees_exact : Agrees engine .exact opts expected actual ↔ expected = actual := by
  rw [Agrees, compareCase, outcome_passed]
  split <;> simp_all

theorem agrees_trimmed :
    Agrees engine .trimmed opts expected actual ↔ normalise expected = normalise actual := by
  rw [Agrees, compareCase, outcome_passed]
  split <;> simp_all

theorem agrees_caseInsensitive :
    Agrees engine .caseInsensitive opts expected actual ↔
      engine.toLowerCase (normalise expected) = engine.toLowerCase (normalise actual) := by
  rw [Agrees, compareCase, outcome_passed]
  split <;> simp_all

end Modes

/-- A mode that compares the values of a function is an equivalence. -/
private theorem equivalence_of_key {α : Type} {relation : JsString → JsString → Prop}
    (key : JsString → α) (keyed : ∀ expected actual, relation expected actual ↔
      key expected = key actual) : Equivalence relation where
  refl := fun text => (keyed text text).mpr rfl
  symm := fun agreed => (keyed _ _).mpr ((keyed _ _).mp agreed).symm
  trans := fun first second => (keyed _ _).mpr (((keyed _ _).mp first).trans ((keyed _ _).mp second))

/-- Normalising is idempotent; exact agreement implies trimmed agreement, and that agreement in
all but case; each of the three is an equivalence. Numeric comparison does not tell expected from
actual, and larger finite tolerances pass no less. -/
theorem agreement_laws (engine : TextEngine) (opts : Option CompareOptions) :
    (∀ text, normalise (normalise text) = normalise text) ∧
    (∀ expected actual, Agrees engine .exact opts expected actual →
      Agrees engine .trimmed opts expected actual) ∧
    (∀ expected actual, Agrees engine .trimmed opts expected actual →
      Agrees engine .caseInsensitive opts expected actual) ∧
    Equivalence (Agrees engine .exact opts) ∧ Equivalence (Agrees engine .trimmed opts) ∧
    Equivalence (Agrees engine .caseInsensitive opts) ∧
    (∀ expected actual, compareNumeric expected actual opts =
      compareNumeric actual expected opts) ∧
    ∀ expected actual larger, (absoluteOf larger).isFinite = true →
      (relativeOf larger).isFinite = true → (absoluteOf opts).le (absoluteOf larger) = true →
      (relativeOf opts).le (relativeOf larger) = true →
      (compareNumeric expected actual opts).passed = true →
      (compareNumeric expected actual larger).passed = true := by
  refine ⟨normalise_normalise, ?_, ?_, ?_, ?_, ?_, ?_, ?_⟩
  · intro expected actual exact
    rw [(agrees_exact ..).mp exact]
    exact (agrees_trimmed ..).mpr rfl
  · intro expected actual trimmed
    exact (agrees_caseInsensitive ..).mpr (congrArg _ ((agrees_trimmed ..).mp trimmed))
  · exact equivalence_of_key id (agrees_exact engine opts)
  · exact equivalence_of_key normalise (agrees_trimmed engine opts)
  · exact equivalence_of_key (fun text => engine.toLowerCase (normalise text))
      (agrees_caseInsensitive engine opts)
  · intro expected actual
    exact compareNumeric_comm expected actual opts
  · intro expected actual larger absoluteFinite relativeFinite absoluteOrdered relativeOrdered passed
    exact compareNumeric_mono absoluteFinite relativeFinite absoluteOrdered relativeOrdered passed

/-- An infinite tolerance is refused, so a pass at tolerance one is a fail at infinity. -/
theorem infinite_tolerance_refused :
    ¬ ∀ (expected actual : JsString) (opts larger : Option CompareOptions),
      (absoluteOf opts).le (absoluteOf larger) = true →
      (relativeOf opts).le (relativeOf larger) = true →
      (compareNumeric expected actual opts).passed = true →
      (compareNumeric expected actual larger).passed = true := by
  intro law
  have passed : (compareNumeric (js "1") (js "1")
      (some ⟨some (.finite 1), none, none⟩)).passed = true := by decide +kernel
  have failed : (compareNumeric (js "1") (js "1")
      (some ⟨some (.infinite false), none, none⟩)).passed = false := by decide +kernel
  have ordered := law (js "1") (js "1") (some ⟨some (.finite 1), none, none⟩)
    (some ⟨some (.infinite false), none, none⟩) (by decide +kernel) (by decide +kernel) passed
  rw [failed] at ordered
  cases ordered

end Assaybank.Grading
