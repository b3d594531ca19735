import Assaybank.Db.Cursor
import Assaybank.Jobs.BankTransfer

/-!
Owns the export as it is read, a page of questions and a page of versions at a time.

Contract: whatever fits a page, the pages put together are the whole lists
(`exportBankByPages_eq`). A cursor is the last row's instant, at the precision it is stored with,
and its identifier.
-/

namespace Assaybank.Jobs

open Assaybank.Runtime Assaybank.Contracts Assaybank.Db Assaybank.Interchange Assaybank.Bank
open Assaybank.Library.Keyset

def DEFAULT_PAGE_SIZE : Nat := 50

/-! ### The order of a list -/

def questionKey (entry : QuestionId × QuestionRows) : Instant × Uuid := (entry.2.createdAt, entry.1)

def versionKey (version : VersionRow) : Instant × Uuid := (version.createdAt, version.id)

/-! ### The readers -/

/-- Every row of a list, newest first, page after page. A page serves a row at least, so the rows
bound the pages. -/
def readNewest {Row : Type} (key : Row → Instant × Uuid) (rows : List Row) : List Row :=
  readPages (page Descends key rows DEFAULT_PAGE_SIZE) (rows.length + 1) none

/-- Every version of a question, oldest first: sorted by number once the pages are read. -/
def pagedVersions (question : QuestionRows) : List BankVersion :=
  ((readNewest versionKey question.versions).map toBankVersion).insertionSort fun left right =>
    left.versionNo ≤ right.versionNo

/-- The questions of a bank, oldest first. -/
def pagedQuestions (bank : BankState) (filter : ExportFilter) : List (QuestionId × QuestionRows) :=
  (readNewest questionKey (bank.questions.filter fun entry => isListed filter entry.2)).reverse

/-- The organisation's bank, as its pages are read. -/
def exportBankByPages (bank : BankState) (filter : ExportFilter) : List BankItem :=
  (pagedQuestions bank filter).zipIdx.flatMap fun (entry, index) =>
    if pagedVersions entry.2 = [] then []
    else [{ exportedItem (positionalRef index) (keyById bank) entry.2 with
      versions := pagedVersions entry.2 }]

/-! ### The pages put together -/

private theorem readNewest_eq {Row : Type} {key : Row → Instant × Uuid} {rows : List Row}
    (distinct : (rows.map key).Nodup) : readNewest key rows = ordered Descends key rows :=
  readPages_eq (by decide) distinct (Nat.lt_succ_self _)

theorem pagedVersions_eq {question : QuestionRows}
    (ids : (question.versions.map VersionRow.id).Nodup)
    (numbers : (question.versions.map VersionRow.versionNo).Nodup) :
    pagedVersions question = allVersions question := by
  have keys : (question.versions.map versionKey).Nodup := by
    apply List.Nodup.of_map Prod.snd
    rw [List.map_map]
    exact ids
  have whole : ((readNewest versionKey question.versions).map toBankVersion).Perm
      (question.versions.map toBankVersion) := by
    rw [readNewest_eq keys]
    exact (perm_ordered Descends versionKey _).map toBankVersion
  have sorted : (pagedVersions question).Pairwise fun left right =>
      left.versionNo ≤ right.versionNo := List.pairwise_insertionSort _ _
  have alsoSorted : (allVersions question).Pairwise fun left right =>
      left.versionNo ≤ right.versionNo := List.pairwise_insertionSort _ _
  have same : (allVersions question).Perm (question.versions.map toBankVersion) :=
    List.perm_insertionSort _ _
  have alsoSame : (pagedVersions question).Perm (question.versions.map toBankVersion) :=
    (List.perm_insertionSort _ _).trans whole
  apply List.Perm.eq_of_pairwise ?_ sorted alsoSorted (alsoSame.trans same.symm)
  intro left right inside alsoInside low high
  obtain ⟨first, member, rfl⟩ := List.mem_map.mp (alsoSame.mem_iff.mp inside)
  obtain ⟨second, alsoMember, rfl⟩ := List.mem_map.mp (same.mem_iff.mp alsoInside)
  have number : first.versionNo = second.versionNo := Int.ofNat.inj (le_antisymm low high)
  rw [List.inj_on_of_nodup_map numbers member alsoMember number]

/-- Oldest first, and by identifier within one instant. -/
private def IsOlder (left right : QuestionId × QuestionRows) : Prop :=
  left.2.createdAt < right.2.createdAt ∨
    (left.2.createdAt = right.2.createdAt ∧ left.1 ≤ right.1)

private instance : DecidableRel IsOlder := fun _ _ => inferInstanceAs (Decidable (_ ∨ _))

private theorem isOlder_total (left right : QuestionId × QuestionRows) :
    IsOlder left right ∨ IsOlder right left := by
  rcases Nat.lt_trichotomy left.2.createdAt right.2.createdAt with earlier | same | later
  · exact .inl (.inl earlier)
  · rcases List.le_total left.1 right.1 with low | high
    · exact .inl (.inr ⟨same, low⟩)
    · exact .inr (.inr ⟨same.symm, high⟩)
  · exact .inr (.inl later)

private theorem isOlder_trans {first second third : QuestionId × QuestionRows}
    (early : IsOlder first second) (late : IsOlder second third) : IsOlder first third := by
  rcases early with earlier | ⟨same, low⟩
  · rcases late with alsoEarlier | ⟨alsoSame, _⟩
    · exact .inl (Nat.lt_trans earlier alsoEarlier)
    · exact .inl (alsoSame ▸ earlier)
  · rcases late with alsoEarlier | ⟨alsoSame, alsoLow⟩
    · exact .inl (same ▸ alsoEarlier)
    · exact .inr ⟨same.trans alsoSame, List.le_trans low alsoLow⟩

private theorem isOlder_antisymm {left right : QuestionId × QuestionRows}
    (forth : IsOlder left right) (back : IsOlder right left) : left.1 = right.1 := by
  rcases forth with earlier | ⟨same, low⟩
  · rcases back with later | ⟨same, _⟩
    · exact absurd later (Nat.lt_asymm earlier)
    · exact absurd same.symm (Nat.ne_of_lt earlier)
  · rcases back with later | ⟨_, high⟩
    · exact absurd same.symm (Nat.ne_of_lt later)
    · exact List.le_antisymm low high

theorem pagedQuestions_eq {bank : BankState} (ids : (bank.questions.map Prod.fst).Nodup)
    (filter : ExportFilter) : pagedQuestions bank filter = listQuestions bank filter := by
  have keys : ((bank.questions.filter fun entry => isListed filter entry.2).map
      questionKey).Nodup := by
    apply List.Nodup.of_map Prod.snd
    rw [List.map_map]
    exact ids.sublist (List.filter_sublist.map Prod.fst)
  let listed := bank.questions.filter fun entry => isListed filter entry.2
  have total : Std.Total IsOlder := ⟨isOlder_total⟩
  have transitive : IsTrans (QuestionId × QuestionRows) IsOlder := ⟨fun _ _ _ => isOlder_trans⟩
  have sorted : (listQuestions bank filter).Pairwise IsOlder :=
    List.pairwise_insertionSort IsOlder listed
  have alsoSorted : (pagedQuestions bank filter).Pairwise IsOlder := by
    unfold pagedQuestions
    rw [readNewest_eq keys, List.pairwise_reverse]
    apply (pairwise_ordered keys).imp
    intro left right newer
    rcases newer with later | ⟨same, greater⟩
    · exact .inl later
    · exact .inr ⟨same, List.le_of_lt greater⟩
  have same : (listQuestions bank filter).Perm listed := List.perm_insertionSort _ _
  have alsoSame : (pagedQuestions bank filter).Perm listed := by
    unfold pagedQuestions
    rw [readNewest_eq keys]
    exact (List.reverse_perm _).trans (perm_ordered Descends questionKey listed)
  apply List.Perm.eq_of_pairwise ?_ alsoSorted sorted (alsoSame.trans same.symm)
  intro left right inside alsoInside forth back
  have member := List.mem_of_mem_filter (alsoSame.mem_iff.mp inside)
  have alsoMember := List.mem_of_mem_filter (same.mem_iff.mp alsoInside)
  exact List.inj_on_of_nodup_map ids member alsoMember (isOlder_antisymm forth back)

/-- The export by pages is the export of the whole lists. -/
theorem exportBankByPages_eq {bank : BankState} (ids : (bank.questions.map Prod.fst).Nodup)
    (versions : ∀ entry ∈ bank.questions, (entry.2.versions.map VersionRow.id).Nodup ∧
      (entry.2.versions.map VersionRow.versionNo).Nodup)
    (filter : ExportFilter) : exportBankByPages bank filter = exportBank bank filter := by
  unfold exportBankByPages exportBank
  rw [pagedQuestions_eq ids]
  apply List.flatMap_congr
  intro (entry, index) inside
  have member : entry ∈ bank.questions :=
    List.mem_of_mem_filter ((List.perm_insertionSort _ _).mem_iff.mp
      (List.fst_mem_of_mem_zipIdx inside))
  simp only [pagedVersions_eq (versions entry member).1 (versions entry member).2]
  rfl

end Assaybank.Jobs
