import Assaybank.Db.VersionContent
import Mathlib.Data.List.Sort

/-!
Owns what the database keeps of a value it is given: the encoding of text, the rounding of the
`numeric` columns, and the values an insert refuses.

A `text` parameter is sent as UTF-8, which writes an unpaired surrogate as U+FFFD, and the server
refuses U+0000 in it. A `jsonb` parameter is sent as JSON, which escapes both, and the server
refuses both. The text of a `numeric` column is the number it stands for.

Contract: in whatever order a child table keeps the rows of a version, they are read in the order
they were written in (`byOrdinal_of_perm`).
-/

namespace Assaybank.Db

open Assaybank.Runtime Assaybank.Contracts

/-- U+FFFD, the replacement character. -/
def REPLACEMENT : CodeUnit := 0xFFFD

/-- A string as UTF-8 carries it: each unpaired surrogate replaced. -/
def toWellFormed : JsString → JsString
  | [] => []
  | [c] => if isHighSurrogate c || isLowSurrogate c then [REPLACEMENT] else [c]
  | c :: d :: rest =>
      if isHighSurrogate c then
        if isLowSurrogate d then c :: d :: toWellFormed rest
        else REPLACEMENT :: toWellFormed (d :: rest)
      else if isLowSurrogate c then REPLACEMENT :: toWellFormed (d :: rest)
      else c :: toWellFormed (d :: rest)

/-- Whether a `text` column takes a string. -/
def takesText (s : JsString) : Bool := !s.contains 0

/-- Whether a `jsonb` column takes a string. -/
def takesJsonText (s : JsString) : Bool := takesText s && toWellFormed s == s

/-- `toFixed(2)`. A score the schemas admit is never half way between two hundredths. -/
def toFixed2 (d : Decimal) : Decimal := .ofScaled (round (d.toRat * 100)) (-2)

/-! ### Rows -/

def takesTexts (texts : List JsString) : Bool := texts.all takesText

def takesRecord (entries : List (JsString × JsString)) : Bool :=
  entries.all fun entry => takesJsonText entry.1 && takesJsonText entry.2

def takesOption (option : McqOptionContent) : Bool :=
  takesText option.bodyMd && option.rationaleMd.all takesText

def takesSpec (spec : CodingSpecContent) : Bool :=
  takesTexts spec.allowedLanguages && takesRecord spec.starterCode &&
    takesRecord spec.solutionCode && spec.checkerCode.all takesText && spec.fixtureSql.all takesText

def takesCase (testCase : TestCaseContent) : Bool :=
  testCase.label.all takesText && takesText testCase.stdin &&
    testCase.expectedStdout.all takesText && testCase.args.all takesTexts &&
      testCase.assertionCode.all takesText

def takesKey (key : AnswerKeyContent) : Bool := takesText key.pattern

/-- Whether the `question_versions` table takes the columns of a version. -/
def takesVersion (content : VersionContent) : Bool :=
  takesText content.locale && takesText content.promptMd && content.explanationMd.all takesText

/-- Whether the four child tables take theirs. -/
def takesChildren (content : VersionContent) : Bool :=
  content.options.all takesOption && content.codingSpec.all takesSpec &&
    content.testCases.all takesCase && content.answerKeys.all takesKey

def takesContent (content : VersionContent) : Bool :=
  takesVersion content && takesChildren content

def storedOption (option : McqOptionContent) : McqOptionContent where
  bodyMd := toWellFormed option.bodyMd
  isCorrect := option.isCorrect
  scoreDelta := option.scoreDelta.map toFixed2
  rationaleMd := option.rationaleMd.map toWellFormed

def storedSpec (spec : CodingSpecContent) : CodingSpecContent :=
  { spec with
    allowedLanguages := spec.allowedLanguages.map toWellFormed
    checkerCode := spec.checkerCode.map toWellFormed
    fixtureSql := spec.fixtureSql.map toWellFormed }

def storedCase (testCase : TestCaseContent) : TestCaseContent where
  label := testCase.label.map toWellFormed
  stdin := toWellFormed testCase.stdin
  expectedStdout := testCase.expectedStdout.map toWellFormed
  args := testCase.args.map fun args => args.map toWellFormed
  assertionCode := testCase.assertionCode.map toWellFormed
  isSample := testCase.isSample
  weight := toFixed2 testCase.weight

/-- The tolerance is kept exactly: its column has no scale. -/
def storedKey (key : AnswerKeyContent) : AnswerKeyContent where
  matchType := key.matchType
  pattern := toWellFormed key.pattern
  tolerance := key.tolerance
  score := toFixed2 key.score

/-! ### Child tables -/

/-- The rows of a version as they are inserted in a child table, each with its ordinal. -/
def numbered {Row : Type} (first : Nat) (rows : List Row) : List (Row × Nat) := rows.zipIdx first

/-- The rows of a version, `ORDER BY ordinal`. -/
def byOrdinal {Row : Type} (table : List (Row × Nat)) : List Row :=
  (table.insertionSort fun a b => a.2 ≤ b.2).map Prod.fst

section Ordinals

variable {Row : Type} {first : Nat} {rows : List Row}

private theorem pairwise_numbered : (numbered first rows).Pairwise fun a b => a.2 ≤ b.2 := by
  induction rows generalizing first with
  | nil => exact List.Pairwise.nil
  | cons row rest inductionHypothesis =>
      refine List.Pairwise.cons ?_ inductionHypothesis
      rintro ⟨other, ordinal⟩ inside
      exact (Nat.le_succ first).trans (List.le_snd_of_mem_zipIdx inside)

/-- What order a table keeps its rows in does not show. -/
theorem byOrdinal_of_perm {table : List (Row × Nat)} (perm : table.Perm (numbered first rows)) :
    byOrdinal table = rows := by
  have sorted := List.pairwise_insertionSort (fun a b : Row × Nat => a.2 ≤ b.2) table
  have same : table.insertionSort (fun a b => a.2 ≤ b.2) = numbered first rows := by
    apply ((List.perm_insertionSort _ table).trans perm).eq_of_pairwise _ sorted pairwise_numbered
    intro a b left right below above
    have inside := perm.mem_iff.mp ((List.mem_insertionSort _).mp left)
    rw [numbered, List.mem_zipIdx_iff_le_and_getElem?_sub] at inside right
    rw [Nat.le_antisymm below above, right.2] at inside
    exact Prod.ext (Option.some.inj inside.2).symm (Nat.le_antisymm below above)
  rw [byOrdinal, same, numbered, List.zipIdx_map_fst]

@[simp] theorem byOrdinal_numbered : byOrdinal (numbered first rows) = rows :=
  byOrdinal_of_perm (List.Perm.refl _)

end Ordinals

/-- A version's content as it is read back. -/
def storedContent (content : VersionContent) : VersionContent where
  locale := toWellFormed content.locale
  promptMd := toWellFormed content.promptMd
  explanationMd := content.explanationMd.map toWellFormed
  difficulty := content.difficulty
  estSeconds := content.estSeconds
  maxScore := toFixed2 content.maxScore
  negativeScore := toFixed2 content.negativeScore
  options := byOrdinal (numbered 1 (content.options.map storedOption))
  codingSpec := content.codingSpec.map storedSpec
  testCases := byOrdinal (numbered 1 (content.testCases.map storedCase))
  answerKeys := byOrdinal (numbered 0 (content.answerKeys.map storedKey))

end Assaybank.Db
