import Assaybank.Interchange.BankDocument
import Assaybank.Library.Explained

/-!
Owns the verdict on each row of a file (`apps/worker/src/interchange/bank-document.ts`): a row is
accepted or has problems, and a refused row decides nothing about the others.

Contract: the refs taken before a row are those of the earlier rows that checked, whether these
were accepted or not (`collect_append`). It does not own what a row must be to check.
-/

namespace Assaybank.Interchange

open Assaybank.Runtime Assaybank.Library Assaybank.Contracts Assaybank.Domain

/-! ### Every refusal has a problem -/

private theorem explains_option : BankOptionSchema.Explains :=
  Schema.explains_strictObject
    ((Fields.explains_field Schema.explains_string).both
      ((Fields.explains_field Schema.explains_bool).both
        ((Fields.explains_field Schema.explains_number.nullable).both
          (Fields.explains_field Schema.explains_string.nullable))))

private theorem explains_codingSpec : BankCodingSpecSchema.Explains :=
  Schema.explains_strictObject
    ((Fields.explains_field Schema.explains_string.array).both
      ((Fields.explains_field Schema.explains_record).both
        ((Fields.explains_field Schema.explains_record).both
          ((Fields.explains_field Schema.explains_integer).both
            ((Fields.explains_field Schema.explains_integer).both
              ((Fields.explains_field Schema.explains_enumeration).both
                ((Fields.explains_field Schema.explains_string.nullable).both
                  (Fields.explains_field Schema.explains_string.nullable))))))))

private theorem explains_testCase : BankTestCaseSchema.Explains :=
  Schema.explains_strictObject
    ((Fields.explains_field Schema.explains_string.nullable).both
      ((Fields.explains_field Schema.explains_string).both
        ((Fields.explains_field Schema.explains_string.nullable).both
          ((Fields.explains_field Schema.explains_string.array.nullable).both
            ((Fields.explains_field Schema.explains_string.nullable).both
              ((Fields.explains_field Schema.explains_bool).both
                (Fields.explains_field Schema.explains_number)))))))

private theorem explains_answerKey : BankAnswerKeySchema.Explains :=
  Schema.explains_strictObject
    ((Fields.explains_field Schema.explains_enumeration).both
      ((Fields.explains_field Schema.explains_string).both
        ((Fields.explains_field Schema.explains_number.nullable).both
          (Fields.explains_field Schema.explains_number))))

private theorem explains_version : BankVersionSchema.Explains :=
  Schema.explains_strictObject
    ((Fields.explains_field Schema.explains_integer).both
      ((Fields.explains_field Schema.explains_bool).both
        ((Fields.explains_field Schema.explains_string).both
          ((Fields.explains_field Schema.explains_string).both
            ((Fields.explains_field Schema.explains_string.nullable).both
              ((Fields.explains_field Schema.explains_integer).both
                ((Fields.explains_field Schema.explains_integer).both
                  ((Fields.explains_field Schema.explains_number).both
                    ((Fields.explains_field Schema.explains_number).both
                      ((Fields.explains_field explains_option.array).both
                        ((Fields.explains_field explains_codingSpec.nullable).both
                          ((Fields.explains_field explains_testCase.array).both
                            (Fields.explains_field explains_answerKey.array)))))))))))))

private theorem explains_skill : BankSkillSchema.Explains :=
  Schema.explains_strictObject
    ((Fields.explains_field Schema.explains_string).both
      (Fields.explains_field Schema.explains_number))

private theorem explains_item : BankItemSchema.Explains := by
  have shape : BankItemShape.Explains :=
    Schema.explains_strictObject
      ((Fields.explains_field Schema.explains_string).both
        ((Fields.explains_field Schema.explains_enumeration).both
          ((Fields.explains_field Schema.explains_enumeration).both
            ((Fields.explains_field Schema.explains_string.nullable).both
              ((Fields.explains_field Schema.explains_string.nullable).both
                ((Fields.explains_field explains_skill.array).both
                  (Fields.explains_field explains_version.array)))))))
  exact shape.refine

section Row

variable {value : Value} {index : Nat}

private theorem kindProblems_index {item : BankItem} {problem : ItemProblem}
    (inside : problem ∈ kindProblems item index) : problem.index = index := by
  obtain ⟨version, _, among⟩ := List.mem_flatMap.mp inside
  obtain ⟨issue, _, rfl⟩ := List.mem_map.mp among
  rfl

/-- A refused row has a problem, and all its problems are under its position. -/
theorem checkBankItem_error {problems : List ItemProblem}
    (refused : checkBankItem value index = .error problems) :
    problems ≠ [] ∧ ∀ problem ∈ problems, problem.index = index := by
  have explained := explains_item value
  unfold checkBankItem at refused
  generalize BankItemSchema.parse value = parsed at refused explained
  have listed : parsed.issues ≠ [] → problems = parsed.issues.map (fun issue =>
      ⟨index, refOf value, issue.path, issue.rule⟩) → problems ≠ [] ∧
        ∀ problem ∈ problems, problem.index = index := by
    intro some same
    rw [same]
    refine ⟨fun silent => some (List.map_eq_nil_iff.mp silent), ?_⟩
    intro problem inside
    obtain ⟨issue, _, rfl⟩ := List.mem_map.mp inside
    rfl
  rcases parsed with ⟨read, issues⟩
  cases read with
  | none =>
      cases refused
      exact listed (explained rfl) rfl
  | some item =>
      cases issues with
      | cons issue rest =>
          cases refused
          exact listed (List.cons_ne_nil _ _) rfl
      | nil =>
          simp only at refused
          split at refused
          · cases refused
          · rename_i broken
            cases refused
            exact ⟨broken, fun problem inside => kindProblems_index inside⟩

/-- The `ref` of a row that checks is the one its item has. -/
theorem refOf_of_checked {item : BankItem} (checked : checkBankItem value index = .ok item) :
    refOf value = some item.ref := by
  have parsed := (checkBankItem_eq_ok.mp checked).1
  have shape : BankItemShape.parse value = .accepted item := by
    have read : (BankItemShape.parse value).value = some item := congrArg Parsed.value parsed
    have silent := (List.append_eq_nil_iff.mp (congrArg Parsed.issues parsed)).1
    rcases equal : BankItemShape.parse value with ⟨found, issues⟩
    rw [equal] at read silent
    exact congr (congrArg Parsed.mk read) silent
  cases value with
  | object members =>
      unfold BankItemShape Schema.strictObject at shape
      simp only at shape
      split at shape
      · obtain ⟨fields, read, same⟩ := Parsed.map_eq_accepted.mp shape
        cases same
        have first := (Parsed.both_eq_accepted.mp read).1
        unfold Fields.field at first
        simp only at first
        unfold refOf
        simp only
        split at first
        · cases first
        · rename_i raw named
          rw [named]
          have text := congrArg Parsed.value (Parsed.within_eq_accepted.mp first)
          cases raw with
          | string ref => exact text
          | _ => cases text
      · cases shape
  | _ => cases shape

end Row

/-! ### The refs taken before a row -/

/-- A row with what checking it gave. -/
abbrev CheckedRow := Nat × Except (List ItemProblem) BankItem

/-- The ref of a row that checked. -/
def takenBy : CheckedRow → Option JsString
  | (_, .ok item) => some item.ref
  | (_, .error _) => none

/-- The refs that rows take. -/
def takenRefs (rows : List CheckedRow) : List JsString := rows.filterMap takenBy

def ReadResult.append (first second : ReadResult) : ReadResult :=
  ⟨first.items ++ second.items, first.problems ++ second.problems⟩

section Collect

variable {message : String} {seen other : List JsString} {rows : List CheckedRow}

theorem collect_congr (same : ∀ ref, ref ∈ seen ↔ ref ∈ other) :
    collect message seen rows = collect message other rows := by
  induction rows generalizing seen other with
  | nil => rfl
  | cons row rest inductionHypothesis =>
      rcases row with ⟨index, problems | item⟩
      · unfold collect
        rw [inductionHypothesis same]
      · unfold collect
        by_cases taken : item.ref ∈ seen
        · rw [if_pos taken, if_pos ((same _).mp taken), inductionHypothesis same]
        · rw [if_neg taken, if_neg (fun there => taken ((same _).mpr there))]
          rw [@inductionHypothesis (item.ref :: seen) (item.ref :: other)]
          intro ref
          rw [List.mem_cons, List.mem_cons, same]

/-- The rows after others are checked under the refs that those took. -/
theorem collect_append (before after : List CheckedRow) :
    collect message seen (before ++ after) =
      (collect message seen before).append
        (collect message (takenRefs before ++ seen) after) := by
  induction before generalizing seen with
  | nil => rfl
  | cons row rest inductionHypothesis =>
      rcases row with ⟨index, problems | item⟩
      · show (collect message seen (rest ++ after)).withProblems problems = _
        rw [inductionHypothesis]
        show ReadResult.mk _ (problems ++ (_ ++ _)) = ⟨_, (problems ++ _) ++ _⟩
        rw [List.append_assoc]
        rfl
      · have step : ∀ tail, collect message seen ((index, .ok item) :: tail) =
            if item.ref ∈ seen then
              (collect message seen tail).withProblems [duplicateRef message index item.ref]
            else (collect message (item.ref :: seen) tail).withItem index item := fun _ => rfl
        rw [List.cons_append, step, step]
        show _ = ReadResult.append _
          (collect message (item.ref :: (takenRefs rest ++ seen)) after)
        by_cases taken : item.ref ∈ seen
        · have sooner : collect message (item.ref :: (takenRefs rest ++ seen)) after =
              collect message (takenRefs rest ++ seen) after := by
            apply collect_congr
            intro ref
            rw [List.mem_cons, or_iff_right_iff_imp]
            rintro rfl
            exact List.mem_append_right _ taken
          rw [if_pos taken, if_pos taken, inductionHypothesis, sooner]
          rfl
        · have sooner : collect message (item.ref :: (takenRefs rest ++ seen)) after =
              collect message (takenRefs rest ++ item.ref :: seen) after := by
            apply collect_congr
            intro ref
            simp only [List.mem_cons, List.mem_append]
            exact or_left_comm
          rw [if_neg taken, if_neg taken, inductionHypothesis, sooner]
          rfl

/-- A row alone is judged by whether its ref is taken. -/
private theorem collect_single_congr {row : CheckedRow}
    (same : ∀ ref, takenBy row = some ref → (ref ∈ seen ↔ ref ∈ other)) :
    collect message seen [row] = collect message other [row] := by
  rcases row with ⟨index, problems | item⟩
  · rfl
  · show (if item.ref ∈ seen then _ else _) = if item.ref ∈ other then _ else _
    by_cases taken : item.ref ∈ seen
    · rw [if_pos taken, if_pos ((same item.ref rfl).mp taken)]
      rfl
    · rw [if_neg taken, if_neg fun there => taken ((same item.ref rfl).mpr there)]
      rfl

end Collect

/-! ### The verdict on a row -/

/-- What is said of the row at a position: its item, if accepted, and its problems. -/
def ReadResult.verdict (result : ReadResult) (index : Nat) :
    List (Nat × BankItem) × List ItemProblem :=
  (result.items.filter (·.1 == index), result.problems.filter (·.index == index))

/-- The row at a position is among the accepted items. -/
def ReadResult.Accepts (result : ReadResult) (index : Nat) : Prop :=
  index ∈ result.items.map Prod.fst

/-- The row at a position has problems. -/
def ReadResult.Refuses (result : ReadResult) (index : Nat) : Prop :=
  index ∈ result.problems.map ItemProblem.index

/-- Every refused row has a problem, and all its problems are under its position. -/
def Located (rows : List CheckedRow) : Prop :=
  ∀ row ∈ rows, ∀ problems, row.2 = .error problems →
    problems ≠ [] ∧ ∀ problem ∈ problems, problem.index = row.1

section Verdict

variable {message : String} {seen : List JsString} {rows before after : List CheckedRow}
  {row : CheckedRow} {result : ReadResult} {index : Nat}

private theorem mem_map_iff_filter {α : Type} {entries : List α} {position : α → Nat} :
    index ∈ entries.map position ↔ (entries.filter fun entry => position entry == index) ≠ [] := by
  constructor
  · intro inside
    obtain ⟨entry, among, here⟩ := List.mem_map.mp inside
    exact List.ne_nil_of_mem (List.mem_filter.mpr ⟨among, beq_iff_eq.mpr here⟩)
  · intro some
    obtain ⟨entry, among⟩ := List.exists_mem_of_ne_nil _ some
    obtain ⟨inside, here⟩ := List.mem_filter.mp among
    exact List.mem_map.mpr ⟨entry, inside, beq_iff_eq.mp here⟩

theorem accepts_iff_verdict : result.Accepts index ↔ (result.verdict index).1 ≠ [] :=
  mem_map_iff_filter

theorem refuses_iff_verdict : result.Refuses index ↔ (result.verdict index).2 ≠ [] :=
  mem_map_iff_filter

private theorem collect_problem_index (located : Located rows) {problem : ItemProblem}
    (inside : problem ∈ (collect message seen rows).problems) :
    problem.index ∈ rows.map Prod.fst := by
  induction rows generalizing seen with
  | nil => cases inside
  | cons row rest inductionHypothesis =>
      have later : Located rest := fun other among => located other (List.mem_cons_of_mem _ among)
      rcases row with ⟨index, problems | item⟩
      · rcases List.mem_append.mp inside with own | further
        · have here := (located _ List.mem_cons_self problems rfl).2 problem own
          rw [here]
          exact List.mem_cons_self
        · exact List.mem_cons_of_mem _ (inductionHypothesis later further)
      · have step : collect message seen ((index, .ok item) :: rest) =
            if item.ref ∈ seen then
              (collect message seen rest).withProblems [duplicateRef message index item.ref]
            else (collect message (item.ref :: seen) rest).withItem index item := rfl
        rw [step] at inside
        split at inside
        · rcases List.mem_cons.mp inside with own | further
          · rw [own]
            exact List.mem_cons_self
          · exact List.mem_cons_of_mem _ (inductionHypothesis later further)
        · exact List.mem_cons_of_mem _ (inductionHypothesis later inside)

private theorem collect_item_index {entry : Nat × BankItem}
    (inside : entry ∈ (collect message seen rows).items) : entry.1 ∈ rows.map Prod.fst := by
  have row := collect_sublist.subset (List.mem_map_of_mem (f := okRow) inside)
  exact List.mem_map.mpr ⟨_, row, rfl⟩

/-- Nothing is said of a position that no row has. -/
private theorem verdict_absent (located : Located rows) (absent : index ∉ rows.map Prod.fst) :
    (collect message seen rows).verdict index = ([], []) := by
  have items : (collect message seen rows).items.filter (·.1 == index) = [] := by
    apply List.filter_eq_nil_iff.mpr
    intro entry inside here
    exact absent (beq_iff_eq.mp here ▸ collect_item_index inside)
  have problems : (collect message seen rows).problems.filter (·.index == index) = [] := by
    apply List.filter_eq_nil_iff.mpr
    intro problem inside here
    exact absent (beq_iff_eq.mp here ▸ collect_problem_index located inside)
  rw [ReadResult.verdict, items, problems]

private theorem verdict_append (first second : ReadResult) :
    (first.append second).verdict index =
      ((first.verdict index).1 ++ (second.verdict index).1,
        (first.verdict index).2 ++ (second.verdict index).2) := by
  unfold ReadResult.verdict ReadResult.append
  simp only [List.filter_append]

/-- The verdict on a row is the one it gets alone, under the refs taken before it. -/
theorem verdict_row (located : Located (before ++ row :: after))
    (notBefore : row.1 ∉ before.map Prod.fst) (notAfter : row.1 ∉ after.map Prod.fst) :
    (collect message seen (before ++ row :: after)).verdict row.1 =
      (collect message (takenRefs before ++ seen) [row]).verdict row.1 := by
  have locatedBefore : Located before := fun other among =>
    located other (List.mem_append_left _ among)
  have locatedAfter : Located after := fun other among =>
    located other (List.mem_append_right _ (List.mem_cons_of_mem _ among))
  have split : row :: after = [row] ++ after := rfl
  rw [collect_append, split, collect_append, verdict_append, verdict_append,
    verdict_absent locatedBefore notBefore, verdict_absent locatedAfter notAfter]
  simp only [List.nil_append, List.append_nil]

/-- A row alone is accepted or has problems, and not both. -/
private theorem single_decided (located : Located [row]) :
    (((collect message seen [row]).verdict row.1).1 ≠ [] ↔
      ¬((collect message seen [row]).verdict row.1).2 ≠ []) := by
  rcases row with ⟨index, problems | item⟩
  · obtain ⟨some, here⟩ := located _ List.mem_cons_self problems rfl
    refine iff_of_false (fun absent => absent rfl) (not_not.mpr ?_)
    obtain ⟨problem, inside⟩ := List.exists_mem_of_ne_nil _ some
    apply mem_map_iff_filter.mp
    exact List.mem_map.mpr ⟨problem, List.mem_append_left _ inside, here problem inside⟩
  · have step : collect message seen [(index, .ok item)] =
        if item.ref ∈ seen then ⟨[], [duplicateRef message index item.ref]⟩
        else ⟨[(index, item)], []⟩ := rfl
    rw [step]
    split
    · refine iff_of_false (fun absent => absent rfl) (not_not.mpr ?_)
      exact mem_map_iff_filter.mp List.mem_cons_self
    · refine iff_of_true ?_ (fun absent => absent rfl)
      exact mem_map_iff_filter.mp List.mem_cons_self

end Verdict

/-! ### Rows of a file -/

/-- The rows of a file from a position on, checked. -/
def checkedFrom (start : Nat) (rawItems : List Value) : List CheckedRow :=
  (rawItems.zipIdx start).map fun (raw, index) => (index, checkBankItem raw index)

theorem checkedFrom_append (start : Nat) (before after : List Value) :
    checkedFrom start (before ++ after) =
      checkedFrom start before ++ checkedFrom (start + before.length) after := by
  unfold checkedFrom
  rw [List.zipIdx_append, List.map_append]

private theorem checkedFrom_cons (start : Nat) (raw : Value) (after : List Value) :
    checkedFrom start (raw :: after) =
      (start, checkBankItem raw start) :: checkedFrom (start + 1) after := rfl

private theorem positions_checkedFrom (start : Nat) (rawItems : List Value) :
    (checkedFrom start rawItems).map Prod.fst = List.range' start rawItems.length := by
  unfold checkedFrom
  rw [List.map_map]
  exact List.zipIdx_map_snd start rawItems

private theorem mem_checkedFrom {start index : Nat} {rawItems : List Value} :
    index ∈ (checkedFrom start rawItems).map Prod.fst ↔
      start ≤ index ∧ index < start + rawItems.length := by
  rw [positions_checkedFrom, List.mem_range'_1]

private theorem located_checkedFrom (start : Nat) (rawItems : List Value) :
    Located (checkedFrom start rawItems) := by
  intro row inside problems refused
  obtain ⟨⟨raw, index⟩, _, rfl⟩ := List.mem_map.mp inside
  exact checkBankItem_error refused

/-- Two rows give the same `ref`. -/
def SameRef (one other : Value) : Prop := ∃ ref, refOf one = some ref ∧ refOf other = some ref

section File

variable {raw old new : Value} {rawItems before after : List Value} {index : Nat} {ref : JsString}

private theorem refOf_of_takenBy (taken : takenBy (index, checkBankItem raw index) = some ref) :
    refOf raw = some ref := by
  cases checked : checkBankItem raw index with
  | error problems =>
      rw [checked] at taken
      cases taken
  | ok item =>
      rw [checked] at taken
      cases taken
      exact refOf_of_checked checked

private theorem mem_takenRefs :
    ref ∈ takenRefs (checkedFrom 0 (before ++ raw :: after)) ↔
      ref ∈ takenRefs (checkedFrom 0 before) ∨
        takenBy (before.length, checkBankItem raw before.length) = some ref ∨
          ref ∈ takenRefs (checkedFrom (before.length + 1) after) := by
  rw [checkedFrom_append, checkedFrom_cons, Nat.zero_add]
  unfold takenRefs
  rw [List.filterMap_append, List.mem_append]
  apply or_congr Iff.rfl
  cases taken : takenBy (before.length, checkBankItem raw before.length) with
  | none =>
      rw [List.filterMap_cons_none taken]
      exact (or_iff_right (fun same => nomatch same)).symm
  | some own =>
      rw [List.filterMap_cons_some taken, List.mem_cons, Option.some.injEq]
      exact or_congr eq_comm Iff.rfl

/-- The verdict on a row of a file, under the refs of the rows before it. -/
private theorem verdict_at :
    (checkItems (before ++ raw :: after)).verdict before.length =
      (collect "this ref is already used by an earlier item in the file"
        (takenRefs (checkedFrom 0 before))
        [(before.length, checkBankItem raw before.length)]).verdict before.length := by
  have located := located_checkedFrom 0 (before ++ raw :: after)
  rw [checkedFrom_append, checkedFrom_cons, Nat.zero_add] at located
  have notBefore : before.length ∉ (checkedFrom 0 before).map Prod.fst := by
    rw [mem_checkedFrom]
    omega
  have notAfter : before.length ∉ (checkedFrom (before.length + 1) after).map Prod.fst := by
    rw [mem_checkedFrom]
    omega
  have verdict := @verdict_row "this ref is already used by an earlier item in the file" []
    _ _ _ located notBefore notAfter
  rw [List.append_nil] at verdict
  rw [← verdict]
  show (collect _ [] (checkedFrom 0 (before ++ raw :: after))).verdict _ = _
  rw [checkedFrom_append, checkedFrom_cons, Nat.zero_add]

/-- A refused row that checked had its ref taken before. -/
private theorem taken_of_refused (refused : (checkItems (before ++ old :: after)).Refuses before.length)
    (taken : takenBy (before.length, checkBankItem old before.length) = some ref) :
    ref ∈ takenRefs (checkedFrom 0 before) := by
  rw [refuses_iff_verdict, verdict_at] at refused
  cases checked : checkBankItem old before.length with
  | error problems =>
      rw [checked] at taken
      cases taken
  | ok item =>
      rw [checked] at taken refused
      cases taken
      by_contra fresh
      apply refused
      show (List.filter _ (ReadResult.problems (if item.ref ∈ _ then _ else _))) = []
      rw [if_neg fresh]
      rfl

private theorem split_at {α : Type} {items : List α} {a : α} (here : items[index]? = some a) :
    ∃ before after, items = before ++ a :: after ∧ before.length = index := by
  obtain ⟨inside, same⟩ := List.getElem?_eq_some_iff.mp here
  refine ⟨items.take index, items.drop (index + 1), ?_, List.length_take_of_le inside.le⟩
  rw [← same, ← List.drop_eq_getElem_cons inside, List.take_append_drop]

private theorem set_middle {α : Type} (before after : List α) (old new : α) :
    (before ++ old :: after).set before.length new = before ++ new :: after := by
  rw [List.set_append_right _ _ (Nat.le_refl _), Nat.sub_self]
  rfl

/-- A refused row decides nothing about a row of another ref. -/
private theorem verdict_replaced
    (refused : (checkItems (before ++ old :: after)).Refuses before.length)
    {other : Nat} (elsewhere : other ≠ before.length)
    (here : (before ++ old :: after)[other]? = some raw) (apart : ¬SameRef new raw) :
    (checkItems (before ++ new :: after)).verdict other =
      (checkItems (before ++ old :: after)).verdict other := by
  rcases Nat.lt_or_gt_of_ne elsewhere with sooner | later
  · rw [List.getElem?_append_left sooner] at here
    obtain ⟨first, second, rfl, rfl⟩ := split_at here
    rw [List.append_assoc, List.append_assoc, List.cons_append, List.cons_append, verdict_at,
      verdict_at]
  · obtain ⟨distance, rfl⟩ := Nat.exists_eq_add_of_lt later
    have further : after[distance]? = some raw := by
      rw [List.getElem?_append_right (by omega)] at here
      have position : before.length + distance + 1 - before.length = distance + 1 := by omega
      rw [position, List.getElem?_cons_succ] at here
      exact here
    obtain ⟨first, second, rfl, rfl⟩ := split_at further
    have length : ∀ value : Value, (before ++ value :: first).length =
        before.length + first.length + 1 := by
      intro value
      rw [List.length_append, List.length_cons, Nat.add_assoc]
    have verdict : ∀ value : Value,
        (checkItems (before ++ value :: (first ++ raw :: second))).verdict
            (before.length + first.length + 1) =
          (collect "this ref is already used by an earlier item in the file"
            (takenRefs (checkedFrom 0 (before ++ value :: first)))
            [(before.length + first.length + 1,
              checkBankItem raw (before.length + first.length + 1))]).verdict
            (before.length + first.length + 1) := by
      intro value
      have at' := @verdict_at raw (before ++ value :: first) second
      rw [length value, List.append_assoc, List.cons_append] at at'
      exact at'
    rw [verdict new, verdict old]
    apply congrArg (ReadResult.verdict · _)
    apply collect_single_congr
    intro ref taken
    rw [mem_takenRefs, mem_takenRefs]
    have notNew : takenBy (before.length, checkBankItem new before.length) ≠ some ref := fun own =>
      apart ⟨ref, refOf_of_takenBy own, refOf_of_takenBy taken⟩
    constructor
    · rintro (sooner | own | later)
      · exact .inl sooner
      · exact absurd own notNew
      · exact .inr (.inr later)
    · rintro (sooner | own | later)
      · exact .inl sooner
      · exact .inl (taken_of_refused refused own)
      · exact .inr (.inr later)

end File

/-- **Rows.** Every row of a file is either among the accepted items, once, or has problems; no
other position is named; and a refused row, whatever takes its place, leaves the verdict on every
row of another ref as it was. -/
theorem checkItems_verdicts (rawItems : List Value) :
    (∀ index, index < rawItems.length ↔
      ((checkItems rawItems).Accepts index ∨ (checkItems rawItems).Refuses index)) ∧
    (∀ index, ¬((checkItems rawItems).Accepts index ∧ (checkItems rawItems).Refuses index)) ∧
    ((checkItems rawItems).items.map Prod.fst).Nodup ∧
    ∀ index new other row, (checkItems rawItems).Refuses index → other ≠ index →
      rawItems[other]? = some row → ¬SameRef new row →
      (checkItems (rawItems.set index new)).verdict other = (checkItems rawItems).verdict other := by
  have decided : ∀ index, index < rawItems.length →
      ((checkItems rawItems).Accepts index ↔ ¬(checkItems rawItems).Refuses index) := by
    intro index inside
    obtain ⟨before, after, same, rfl⟩ := split_at (List.getElem?_eq_getElem inside)
    rw [accepts_iff_verdict, refuses_iff_verdict, same, verdict_at]
    apply single_decided
    intro row among problems refused
    cases List.mem_singleton.mp among
    exact checkBankItem_error refused
  have located : Located (checkedFrom 0 rawItems) := located_checkedFrom 0 rawItems
  have inside : ∀ index, (checkItems rawItems).Accepts index ∨ (checkItems rawItems).Refuses index →
      index < rawItems.length := by
    intro index said
    have row : index ∈ (checkedFrom 0 rawItems).map Prod.fst := by
      rcases said with accepted | refused
      · obtain ⟨entry, among, rfl⟩ := List.mem_map.mp accepted
        exact collect_item_index among
      · obtain ⟨problem, among, rfl⟩ := List.mem_map.mp refused
        exact collect_problem_index located among
    rw [mem_checkedFrom, Nat.zero_add] at row
    exact row.2
  refine ⟨?_, ?_, ?_, ?_⟩
  · intro index
    refine ⟨fun within => ?_, inside index⟩
    rw [decided index within]
    exact Classical.em _ |>.symm
  · rintro index ⟨accepted, refused⟩
    exact (decided index (inside index (.inl accepted))).mp accepted refused
  · have rows : ((checkItems rawItems).items.map okRow).Sublist (checkedFrom 0 rawItems) :=
      collect_sublist
    have positions := rows.map Prod.fst
    rw [List.map_map] at positions
    have distinct : ((checkedFrom 0 rawItems).map Prod.fst).Nodup := by
      rw [positions_checkedFrom]
      exact List.nodup_range'
    exact positions.nodup distinct
  · intro index new other row refused elsewhere here apart
    have within := inside index (.inr refused)
    obtain ⟨before, after, same, rfl⟩ := split_at (List.getElem?_eq_getElem within)
    rw [same] at refused here ⊢
    rw [set_middle]
    exact verdict_replaced refused elsewhere here apart

/-- A row of a draft question under a ref. -/
def draftRow (ref : String) : Value :=
  BankItemSchema.encode {
    ref := js ref, kind := .subjective, status := .draft, sourceLicense := none, externalRef := none
    skills := []
    versions := [
      { versionNo := 1, published := false, locale := js "en", promptMd := js "q"
        explanationMd := none, difficulty := 1, estSeconds := 1, maxScore := 1, negativeScore := 0
        options := [], codingSpec := none, testCases := [], answerKeys := [] }] }

/-- A row refused for its ref, with a row of a new ref in its place. -/
theorem checkItems_verdicts_example :
    (checkItems [draftRow "a", draftRow "a", draftRow "b"]).Refuses 1 ∧
      (checkItems [draftRow "a", draftRow "c", draftRow "b"]).Accepts 1 ∧
      (checkItems [draftRow "a", draftRow "c", draftRow "b"]).verdict 2 =
        (checkItems [draftRow "a", draftRow "a", draftRow "b"]).verdict 2 := by
  have refused : (checkItems [draftRow "a", draftRow "a", draftRow "b"]).Refuses 1 :=
    (by decide +kernel :
      1 ∈ (checkItems [draftRow "a", draftRow "a", draftRow "b"]).problems.map ItemProblem.index)
  have accepted : (checkItems [draftRow "a", draftRow "c", draftRow "b"]).Accepts 1 :=
    (by decide +kernel :
      1 ∈ (checkItems [draftRow "a", draftRow "c", draftRow "b"]).items.map Prod.fst)
  have apart : ¬SameRef (draftRow "c") (draftRow "b") := by
    rintro ⟨ref, here, there⟩
    have differs : refOf (draftRow "c") ≠ refOf (draftRow "b") := by decide +kernel
    exact differs (here.trans there.symm)
  exact ⟨refused, accepted, (checkItems_verdicts _).2.2.2 1 (draftRow "c") 2 (draftRow "b") refused
    (by decide) rfl apart⟩

end Assaybank.Interchange
