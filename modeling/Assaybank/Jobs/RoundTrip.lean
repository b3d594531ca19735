import Assaybank.Bank.Sound
import Assaybank.Interchange.Exact
import Assaybank.Interchange.ItemParts
import Assaybank.Jobs.BankImport

/-!
Owns the round trip of a bank: what an import writes, and what the export of it reads back.

Contract: accepted items, imported into an organisation without questions that sees their skills,
are all created, and are exported again in the same order, alike but for their refs and the order
of their skills (`import_export`).
-/

namespace Assaybank.Jobs.Transfer

open Assaybank.Runtime Assaybank.Library Assaybank.Contracts Assaybank.Db Assaybank.Interchange
open Assaybank.Bank

/-! ### Versions -/

/-- The row of a version that was written `i` versions after the first. -/
def importedVersion (minted : Minted) (version : BankVersion) (i : Nat) : VersionRow where
  id := minted.versionIds i
  versionNo := i + 1
  content := toVersionContent version
  publishedAt := if version.published then some (minted.stampedAt + i) else none
  createdAt := minted.stampedAt + i

/-- The same before it is published. -/
def draftVersion (minted : Minted) (version : BankVersion) (i : Nat) : VersionRow :=
  { importedVersion minted version i with publishedAt := none }

/-- The rows of versions, the first of which is written `i` versions after the first of all. -/
def importedVersions (minted : Minted) (i : Nat) (versions : List BankVersion) : List VersionRow :=
  (versions.zipIdx i).map fun (version, i) => importedVersion minted version i

/-- A version the database takes and keeps as it is. -/
structure Kept (version : BankVersion) : Prop where
  taken : takesContent (toVersionContent version) = true
  same : storedContent (toVersionContent version) = toVersionContent version

section Versions

variable {question : QuestionRows} {minted : Minted} {i : Nat}

/-- The versions a question has when `i` of them are written. -/
private structure Stage (minted : Minted) (i : Nat) (question : QuestionRows) : Prop where
  numbers : question.versions.map VersionRow.versionNo = List.range' 1 i
  ids : question.versions.map VersionRow.id = (List.range i).map minted.versionIds

private theorem Stage.length (stage : Stage minted i question) : question.versions.length = i := by
  have lengths := congrArg List.length stage.numbers
  rwa [List.length_map, List.length_range'] at lengths

private theorem Stage.highest (stage : Stage minted i question) :
    question.highestVersionNo = i := by
  rw [highestVersionNo_of_numbered, stage.length]
  rw [stage.length]
  exact stage.numbers

private theorem Stage.below (stage : Stage minted i question) {version : VersionRow}
    (inside : version ∈ question.versions) : version.versionNo ≤ i := by
  have bounds : version.versionNo ∈ List.range' 1 i := by
    rw [← stage.numbers]
    exact List.mem_map_of_mem inside
  rw [List.mem_range'_1] at bounds
  omega

private theorem Stage.fresh (stage : Stage minted i question) {version : VersionRow}
    (inside : version ∈ question.versions) : version.id ≠ minted.versionIds i := by
  have earlier : version.id ∈ (List.range i).map minted.versionIds := by
    rw [← stage.ids]
    exact List.mem_map_of_mem inside
  obtain ⟨n, below, same⟩ := List.mem_map.mp earlier
  rw [List.mem_range] at below
  rw [← same]
  intro alike
  exact absurd (minted.distinct alike) (by omega)

private theorem Stage.next (stage : Stage minted i question) {version : VersionRow}
    (id : version.id = minted.versionIds i) (number : version.versionNo = i + 1)
    (current : Option VersionId) :
    Stage minted (i + 1)
      { question with
        versions := question.versions ++ [version]
        currentVersionId := current } where
  numbers := by
    rw [List.map_append, stage.numbers, List.map_singleton, number, List.range'_concat]
    congr 2
    omega
  ids := by
    rw [List.map_append, stage.ids, List.map_singleton, id, List.range_succ, List.map_append]
    rfl

/-- A version is written as it is, numbered after the last. -/
private theorem run_createVersion (stage : Stage minted i question) {version : BankVersion}
    (kept : Kept version) :
    (createVersion (minted.versionIds i) (toVersionContent version) (minted.stampedAt + i)).run
        (some question) =
      .ok (some { question with
          versions := question.versions ++
            [draftVersion minted version i] },
        draftVersion minted version i) := by
  unfold createVersion
  rw [Transaction.run_bind, Transaction.run_query]
  simp only [Except.bind, Option.elim_some, stage.highest]
  unfold insertVersion
  rw [Transaction.run_execute]
  simp only
  rw [if_pos]
  · simp only [kept.same]
    rfl
  · rw [kept.taken, Bool.true_and, List.all_eq_true]
    intro other inside
    have number : other.versionNo ≠ i + 1 := by
      have below := stage.below inside
      omega
    rw [bne_iff_ne.mpr (stage.fresh inside), bne_iff_ne.mpr number]
    rfl

/-- The version just written is the one of its number, and is published alone. -/
private theorem run_publishVersion (stage : Stage minted i question) (version : BankVersion)
    (published : version.published = true) :
    ∃ answer, (publishVersion (i + 1) (minted.stampedAt + i)).run
        (some { question with
          versions := question.versions ++
            [draftVersion minted version i] }) =
      .ok (some { question with
          versions := question.versions ++ [importedVersion minted version i]
          currentVersionId := some (minted.versionIds i) }, answer) := by
  have others : ∀ other ∈ question.versions, isDraftNumbered (i + 1) other = false := by
    intro other inside
    have number : other.versionNo ≠ i + 1 := by
      have below := stage.below inside
      omega
    rw [isDraftNumbered, beq_eq_false_iff_ne.mpr number, Bool.false_and]
  have mine : isDraftNumbered (i + 1)
      (draftVersion minted version i) = true := by
    simp [isDraftNumbered, draftVersion, importedVersion, VersionRow.isPublished]
  have found : (question.versions ++
      [draftVersion minted version i]).find?
        (isDraftNumbered (i + 1)) =
      some (draftVersion minted version i) := by
    rw [List.find?_append, List.find?_eq_none.mpr, Option.none_or, List.find?_singleton,
      if_pos mine]
    intro other inside draft
    rw [others other inside] at draft
    cases draft
  have unchanged : question.versions.map (fun other =>
      if isDraftNumbered (i + 1) other then
        { other with publishedAt := some (minted.stampedAt + i) } else other) =
      question.versions := by
    rw [List.map_congr_left (g := id), List.map_id]
    intro other inside
    rw [others other inside]
    rfl
  unfold publishVersion
  rw [Transaction.run_bind]
  unfold onQuestion
  rw [Transaction.run_execute]
  simp only [Except.map, Except.bind, updateDraft, found, Option.map_some, List.map_append,
    unchanged, List.map_singleton, mine, if_true]
  refine ⟨some (importedVersion minted version i), ?_⟩
  rw [Transaction.run_bind, Transaction.run_execute]
  simp only [Except.bind, Transaction.run_pure, draftVersion, importedVersion, published, if_true]

/-- The versions of an item are written one after the other, by induction on those left. -/
private theorem run_writeVersions {versions : List BankVersion} (stage : Stage minted i question)
    (kept : ∀ version ∈ versions, Kept version) :
    ∃ current, (writeVersions minted i versions).run (some question) =
        .ok (some { question with
          versions := question.versions ++ importedVersions minted i versions
          currentVersionId := current }, ()) := by
  induction versions generalizing i question with
  | nil =>
      refine ⟨question.currentVersionId, ?_⟩
      simp [writeVersions, importedVersions]
  | cons version rest inductionHypothesis =>
      have later : ∀ version ∈ rest, Kept version :=
        fun other inside => kept other (List.mem_cons_of_mem _ inside)
      rw [writeVersions, Transaction.run_bind,
        run_createVersion stage (kept version List.mem_cons_self)]
      simp only [Except.bind]
      have shifted : question.versions ++ importedVersions minted i (version :: rest) =
          question.versions ++ [importedVersion minted version i] ++
            importedVersions minted (i + 1) rest := by
        rw [List.append_assoc]
        rfl
      rw [shifted]
      cases published : version.published with
      | false =>
          have row : draftVersion minted version i = importedVersion minted version i := by
            simp [draftVersion, importedVersion, published]
          have next : Stage minted (i + 1)
              { question with
                versions := question.versions ++ [importedVersion minted version i] } :=
            stage.next rfl rfl question.currentVersionId
          obtain ⟨current, ran⟩ := inductionHypothesis next later
          refine ⟨current, ?_⟩
          rw [row]
          simp only [Bool.false_eq_true, if_false, ran]
      | true =>
          obtain ⟨answer, frozen⟩ := run_publishVersion stage version published
          have next : Stage minted (i + 1)
              { question with
                versions := question.versions ++ [importedVersion minted version i]
                currentVersionId := some (minted.versionIds i) } := stage.next rfl rfl _
          obtain ⟨current, ran⟩ := inductionHypothesis next later
          refine ⟨current, ?_⟩
          have number : (draftVersion minted version i :
              VersionRow).versionNo = i + 1 := rfl
          simp only [if_true, number]
          rw [Transaction.run_bind, frozen]
          simp only [Except.bind, ran]

end Versions

/-! ### Skills -/

section Skills

variable {bank : BankState} {item : BankItem}

/-- The key of the skill a key was looked up as. -/
private theorem keyById_of_lookup (ids : (bank.skills.map SkillRow.id).Nodup) {key : JsString}
    {id : SkillId} (found : (skillIdsByKey bank).lookup key = some id) :
    keyById bank id = some key := by
  have among : ∃ skill ∈ bank.skills, skill.key = key ∧ skill.id = id := by
    have entry := (mem_setEntries (mem_of_lookup found)).resolve_left List.not_mem_nil
    obtain ⟨skill, inside, same⟩ := List.mem_map.mp entry
    cases same
    refine ⟨skill, ?_, rfl, rfl⟩
    cases List.mem_append.mp inside with
    | inl global => exact List.mem_of_mem_filter global
    | inr own => exact List.mem_of_mem_filter own
  obtain ⟨skill, inside, rfl, rfl⟩ := among
  unfold keyById BankState.skill?
  cases held : bank.skills.find? fun other => other.id == skill.id with
  | none =>
      rw [List.find?_eq_none] at held
      exact absurd (beq_self_eq_true _) (held skill inside)
  | some other =>
      have same : other.id = skill.id := by simpa using List.find?_some held
      rw [Option.map_some,
        List.inj_on_of_nodup_map ids (List.mem_of_find?_eq_some held) inside same]

/-- A skill that is seen is looked up. -/
private theorem lookup_of_visible {key : JsString} (visible : ∃ row ∈ bank.skills, row.key = key) :
    ∃ id, (skillIdsByKey bank).lookup key = some id := by
  apply Option.isSome_iff_exists.mp
  apply isSome_lookup_setEntries
  left
  obtain ⟨row, inside, rfl⟩ := visible
  rw [List.map_map]
  apply List.mem_map.mpr
  refine ⟨row, ?_, rfl⟩
  rw [List.mem_append, List.mem_filter, List.mem_filter]
  cases global : row.isGlobal with
  | true => exact .inl ⟨inside, rfl⟩
  | false => exact .inr ⟨inside, rfl⟩

/-- What an item measures, under the identifiers of the organisation. -/
def namedSkills (byKey : List (JsString × SkillId)) (skills : List BankSkill) :
    List (SkillId × Decimal) :=
  skills.filterMap fun skill => (byKey.lookup skill.key).map fun id => (id, skill.weight)

/-- Under their keys again, they are the skills of the item, by induction on them. -/
private theorem namedSkills_keys (ids : (bank.skills.map SkillRow.id).Nodup)
    {skills : List BankSkill}
    (visible : ∀ skill ∈ skills, ∃ row ∈ bank.skills, row.key = skill.key) :
    (namedSkills (skillIdsByKey bank) skills).map
        (fun entry => (keyById bank entry.1, entry.2)) =
      skills.map fun skill => (some skill.key, skill.weight) := by
  induction skills with
  | nil => rfl
  | cons skill rest inductionHypothesis =>
      obtain ⟨id, found⟩ := lookup_of_visible (visible skill List.mem_cons_self)
      have later := inductionHypothesis fun other inside =>
        visible other (List.mem_cons_of_mem _ inside)
      unfold namedSkills at later ⊢
      rw [List.filterMap_cons_some (by rw [found]; rfl), List.map_cons, List.map_cons, later,
        keyById_of_lookup ids found]

private theorem namedSkills_nodup (ids : (bank.skills.map SkillRow.id).Nodup)
    {skills : List BankSkill} (distinct : (skills.map BankSkill.key).Nodup)
    (visible : ∀ skill ∈ skills, ∃ row ∈ bank.skills, row.key = skill.key) :
    ((namedSkills (skillIdsByKey bank) skills).map Prod.fst).Nodup := by
  have keys := congrArg (List.map Prod.fst) (namedSkills_keys ids visible)
  rw [List.map_map, List.map_map] at keys
  apply List.Nodup.of_map (keyById bank)
  rw [List.map_map]
  change (List.map (Prod.fst ∘ fun entry : SkillId × Decimal =>
    (keyById bank entry.1, entry.2)) _).Nodup
  rw [keys]
  have some : skills.map (Prod.fst ∘ fun skill => (Option.some skill.key, skill.weight)) =
      (skills.map BankSkill.key).map Option.some := by
    rw [List.map_map]
    rfl
  rw [some]
  exact distinct.map (Option.some_injective _)

/-- Without skills of the request, the tags are those of the item. -/
private theorem importedSkills_eq (ids : (bank.skills.map SkillRow.id).Nodup)
    (distinct : (item.skills.map BankSkill.key).Nodup)
    (visible : ∀ skill ∈ item.skills, ∃ row ∈ bank.skills, row.key = skill.key)
    (licence : JsString) :
    importedSkills ⟨licence, []⟩ (skillIdsByKey bank) item =
      (namedSkills (skillIdsByKey bank) item.skills).map fun entry => ⟨entry.1, entry.2⟩ := by
  have once : setEntries [] (namedSkills (skillIdsByKey bank) item.skills) =
      namedSkills (skillIdsByKey bank) item.skills := by
    rw [setEntries_of_nodup, List.nil_append]
    exact namedSkills_nodup ids distinct visible
  unfold importedSkills
  simp only [List.foldl_nil]
  unfold namedSkills at once ⊢
  rw [once]

/-- The tags of an imported item are exported as its skills. -/
private theorem exportedSkills_perm (ids : (bank.skills.map SkillRow.id).Nodup)
    (visible : ∀ skill ∈ item.skills, ∃ row ∈ bank.skills, row.key = skill.key)
    {rows : QuestionRows} (tags : rows.skills =
      (namedSkills (skillIdsByKey bank) item.skills).map fun entry => ⟨entry.1, entry.2⟩) :
    (exportedSkills (keyById bank) rows).Perm item.skills := by
  have exported : (rows.skills.flatMap fun skill =>
      (keyById bank skill.skillId).elim [] fun key => [(⟨key, skill.weight⟩ : BankSkill)]) =
      item.skills := by
    have keyed := congrArg (List.flatMap fun entry : Option JsString × Decimal =>
      entry.1.elim [] fun key => [(⟨key, entry.2⟩ : BankSkill)]) (namedSkills_keys ids visible)
    rw [List.flatMap_map, List.flatMap_map] at keyed
    rw [tags, List.flatMap_map]
    refine keyed.trans ?_
    simp only [Option.elim_some]
    exact List.flatMap_singleton' item.skills
  refine (List.perm_insertionSort _ _).trans ?_
  rw [← exported]
  exact (List.perm_insertionSort _ rows.skills).flatMap_right _

end Skills

/-! ### One item -/

/-- The rows of an imported question. -/
structure Imported (minted : Minted) (item : BankItem) (skills : List QuestionSkill)
    (rows : QuestionRows) : Prop where
  kind : rows.kind = item.kind
  status : rows.status = item.status
  sourceLicense : rows.sourceLicense = item.sourceLicense
  externalRef : rows.externalRef = item.externalRef
  active : rows.archivedAt = none
  createdAt : rows.createdAt = minted.createdAt
  skills : rows.skills = skills
  versions : rows.versions = importedVersions minted 0 item.versions

/-- An item that moves as it is: accepted, licensed, numbered from one, in hundredths. -/
structure Movable (item : BankItem) : Prop where
  fits : ItemFits item
  licensed : item.sourceLicense.isSome = true
  numbered : item.versions.map BankVersion.versionNo =
    (List.range' 1 item.versions.length).map Int.ofNat
  exact : ∀ version ∈ item.versions, ExactVersion version
  weights : ∀ skill ∈ item.skills, IsHundredths skill.weight

section Item

variable {minted : Minted} {item : BankItem} {request : ImportRequest}
  {byKey : List (JsString × SkillId)}

private theorem Movable.kept (movable : Movable item) :
    ∀ version ∈ item.versions, Kept version := by
  intro version inside
  exact ⟨takesContent_of_fits (movable.fits.versions version inside),
    storedContent_eq_self (movable.fits.versions version inside) (movable.exact version inside)⟩

private theorem run_createQuestion (movable : Movable item) :
    (createQuestion ⟨item.kind, some (item.sourceLicense.getD request.sourceLicense),
      item.externalRef⟩ minted.createdAt).run none =
      .ok (some ⟨item.kind, .draft, none, item.externalRef, item.sourceLicense, none,
          minted.createdAt, [], []⟩,
        ⟨item.kind, .draft, none, item.externalRef, item.sourceLicense, none,
          minted.createdAt, [], []⟩) := by
  obtain ⟨licence, licensed⟩ := Option.isSome_iff_exists.mp movable.licensed
  have storable := (movable.fits.sourceLicense licence licensed).2.2
  have external : ∀ s, item.externalRef = some s → isStorable s = true :=
    fun s found => (movable.fits.externalRef s found).2.2
  unfold createQuestion
  rw [Transaction.run_execute]
  simp only [licensed, Option.getD_some, Option.isNone_none, Option.all_some, Option.map_some,
    Bool.true_and, takesText_of_isStorable storable, toWellFormed_eq_self storable,
    all_takesText external, map_toWellFormed external, if_true]

private theorem run_setQuestionSkills {rows : QuestionRows} {skills : List QuestionSkill}
    (distinct : (skills.map QuestionSkill.skillId).Nodup)
    (exact : ∀ skill ∈ skills, IsHundredths skill.weight) :
    (setQuestionSkills skills).run (some rows) = .ok (some { rows with skills := skills }, ()) := by
  have same : skills.map (fun skill => { skill with weight := toFixed2 skill.weight }) =
      skills := by
    rw [List.map_congr_left (g := id), List.map_id]
    intro skill inside
    rw [toFixed2_eq_self (exact skill inside)]
    rfl
  unfold setQuestionSkills onQuestion
  rw [Transaction.run_bind, Transaction.run_execute]
  simp only [Except.map, Except.bind]
  split
  · rename_i none
    rw [Transaction.run_pure, none]
  · rw [Transaction.run_execute]
    simp only [same]

private theorem run_setQuestionStatus {rows : QuestionRows} {status : QuestionStatus}
    (active : rows.archivedAt = none) :
    (setQuestionStatus status).run (some rows) =
      .ok (some { rows with status := status }, some { rows with status := status }) := by
  unfold setQuestionStatus updateQuestion onQuestion
  rw [Transaction.run_execute]
  simp only [isActive, active, Option.isNone_none, if_true, Except.map]

variable (minted) in
/-- The transaction of an item writes its rows. -/
private theorem run_writeItem (movable : Movable item)
    (distinct : ((importedSkills request byKey item).map QuestionSkill.skillId).Nodup)
    (exact : ∀ skill ∈ importedSkills request byKey item, IsHundredths skill.weight) :
    ∃ rows, (writeItem request byKey item minted).run none = .ok (some rows, ()) ∧
      Imported minted item (importedSkills request byKey item) rows := by
  let created : QuestionRows := ⟨item.kind, .draft, none, item.externalRef, item.sourceLicense,
    none, minted.createdAt, [], []⟩
  have start : Stage minted 0 created := ⟨rfl, rfl⟩
  obtain ⟨current, written⟩ := run_writeVersions start movable.kept
  unfold writeItem
  rw [Transaction.run_bind, run_createQuestion movable]
  simp only [Except.bind]
  rw [Transaction.run_bind]
  change ∃ rows, Except.bind ((writeVersions minted 0 item.versions).run (some created)) _ = _ ∧ _
  rw [written]
  simp only [Except.bind]
  let versioned : QuestionRows := { created with
    versions := created.versions ++ importedVersions minted 0 item.versions
    currentVersionId := current }
  by_cases draft : item.status = .draft
  · rw [if_neg (not_not.mpr draft)]
    refine ⟨{ versioned with skills := importedSkills request byKey item },
      run_setQuestionSkills distinct exact, ?_⟩
    exact ⟨rfl, draft.symm, rfl, rfl, rfl, rfl, rfl, rfl⟩
  · rw [if_pos draft, Transaction.run_bind, run_setQuestionStatus rfl]
    refine ⟨{ versioned with
      status := item.status
      skills := importedSkills request byKey item }, run_setQuestionSkills distinct exact, ?_⟩
    exact ⟨rfl, rfl, rfl, rfl, rfl, rfl, rfl, rfl⟩

end Item

/-! ### Every item -/

section Items

variable {bank : BankState} {licence : JsString} {items : List (Entry × Minted)}

/-- The tags of an item in an organisation. -/
def tagsOf (bank : BankState) (item : BankItem) : List QuestionSkill :=
  (namedSkills (skillIdsByKey bank) item.skills).map fun entry => ⟨entry.1, entry.2⟩

/-- Whether a question of the bank is the import of an entry. -/
def IsImport (bank : BankState) (entry : Entry × Minted) (question : QuestionId × QuestionRows) :
    Prop :=
  question.1 = entry.2.questionId ∧
    Imported entry.2 entry.1.item (tagsOf bank entry.1.item) question.2

variable (licence) in
/-- An item that moves is written behind the questions that are there. -/
private theorem importOne_ok (ids : (bank.skills.map SkillRow.id).Nodup) {entry : Entry}
    {minted : Minted} (movable : Movable entry.item)
    (visible : ∀ skill ∈ entry.item.skills, ∃ row ∈ bank.skills, row.key = skill.key)
    (fresh : minted.questionId ∉ bank.questions.map Prod.fst) :
    ∃ rows, importOne ⟨licence, []⟩ bank entry minted =
        .ok { bank with questions := bank.questions ++ [(minted.questionId, rows)] } ∧
      Imported minted entry.item (tagsOf bank entry.item) rows := by
  have absent : bank.question? minted.questionId = none := by
    unfold BankState.question?
    rw [Option.map_eq_none_iff, List.find?_eq_none]
    intro question inside same
    exact fresh (beq_iff_eq.mp same ▸ List.mem_map_of_mem inside)
  have known : (entry.item.skills.map BankSkill.key).filter
      (fun key => ((skillIdsByKey bank).lookup key).isNone) = [] := by
    rw [List.filter_eq_nil_iff]
    intro key inside
    obtain ⟨skill, member, rfl⟩ := List.mem_map.mp inside
    obtain ⟨id, found⟩ := lookup_of_visible (visible skill member)
    rw [found]
    exact Bool.false_ne_true
  have tags := importedSkills_eq ids movable.fits.distinct visible licence
  have once : ((importedSkills ⟨licence, []⟩ (skillIdsByKey bank) entry.item).map
      QuestionSkill.skillId).Nodup := by
    rw [tags, List.map_map]
    exact namedSkills_nodup ids movable.fits.distinct visible
  have exact : ∀ skill ∈ importedSkills ⟨licence, []⟩ (skillIdsByKey bank) entry.item,
      IsHundredths skill.weight := by
    rw [tags]
    intro skill inside
    obtain ⟨named, member, rfl⟩ := List.mem_map.mp inside
    obtain ⟨origin, among, found⟩ := List.mem_filterMap.mp member
    obtain ⟨id, _, rfl⟩ := Option.map_eq_some_iff.mp found
    exact movable.weights origin among
  obtain ⟨rows, ran, imported⟩ := run_writeItem minted movable once exact
  refine ⟨rows, ?_, ?_⟩
  swap
  · rw [tagsOf, ← tags]
    exact imported
  unfold importOne
  simp only
  rw [if_neg (not_not.mpr known), absent, ran]
  simp only [BankState.store, absent, Option.isSome_none, Bool.false_eq_true, if_false]

variable (licence) in
/-- Items that move are all created, in their order, by induction on them. -/
private theorem importBankItems_ok (ids : (bank.skills.map SkillRow.id).Nodup)
    (movable : ∀ entry ∈ items, Movable entry.1.item)
    (visible : ∀ entry ∈ items, ∀ skill ∈ entry.1.item.skills,
      ∃ row ∈ bank.skills, row.key = skill.key)
    (fresh : (bank.questions.map Prod.fst ++ items.map fun entry => entry.2.questionId).Nodup) :
    ∃ written, (importBankItems ⟨licence, []⟩ bank items).1 =
        { bank with questions := bank.questions ++ written } ∧
      List.Forall₂ (IsImport bank) items written ∧
      (importBankItems ⟨licence, []⟩ bank items).2 =
        ⟨items.map fun entry => ⟨entry.1.index, entry.1.item.ref, entry.2.questionId⟩, []⟩ := by
  induction items generalizing bank with
  | nil => exact ⟨[], by rw [List.append_nil]; rfl, .nil, rfl⟩
  | cons entry rest inductionHypothesis =>
      obtain ⟨entry, minted⟩ := entry
      have absent : minted.questionId ∉ bank.questions.map Prod.fst := by
        intro present
        rw [List.nodup_append] at fresh
        exact fresh.2.2 _ present _ List.mem_cons_self rfl
      obtain ⟨rows, ran, imported⟩ := importOne_ok licence ids
        (movable _ List.mem_cons_self) (visible _ List.mem_cons_self) absent
      let next : BankState :=
        { bank with questions := bank.questions ++ [(minted.questionId, rows)] }
      have later : (next.questions.map Prod.fst ++
          rest.map fun entry => entry.2.questionId).Nodup := by
        show ((bank.questions ++ [(minted.questionId, rows)]).map Prod.fst ++ _).Nodup
        rw [List.map_append, List.append_assoc]
        exact fresh
      obtain ⟨written, last, imports, outcome⟩ := @inductionHypothesis next ids
        (fun other inside => movable other (List.mem_cons_of_mem _ inside))
        (fun other inside => visible other (List.mem_cons_of_mem _ inside)) later
      refine ⟨(minted.questionId, rows) :: written, ?_, .cons ⟨rfl, imported⟩ imports, ?_⟩
      · simp only [importBankItems, ran]
        rw [last]
        simp only [next, List.append_assoc, List.singleton_append]
      · simp only [importBankItems, ran]
        rw [outcome]
        rfl

end Items

/-! ### The export -/

/-- An item as it is exported: but for its ref and the order of its skills. -/
structure Alike (item exported : BankItem) : Prop where
  same : exported = { item with ref := exported.ref, skills := exported.skills }
  skills : exported.skills.Perm item.skills

section Export

variable {bank : BankState} {item : BankItem} {minted : Minted} {rows : QuestionRows}

private theorem toBankVersion_importedVersion {version : BankVersion} {i : Nat}
    (number : version.versionNo = Int.ofNat (i + 1)) :
    toBankVersion (importedVersion minted version i) = version := by
  have options : toBankOption ∘ toOptionContent = id := rfl
  have specs : toBankSpec ∘ toSpecContent = id := rfl
  have cases : toBankCase ∘ toCaseContent = id := rfl
  have keys : toBankKey ∘ toKeyContent = id := rfl
  have published : (importedVersion minted version i).isPublished = version.published := by
    unfold VersionRow.isPublished importedVersion
    cases version.published <;> rfl
  unfold toBankVersion
  rw [published]
  simp only [importedVersion, toVersionContent, List.map_map, Option.map_map, options, specs, cases,
    keys, List.map_id, Option.map_id, id]
  rw [BankVersion.mk.injEq]
  exact ⟨number.symm, rfl, rfl, rfl, rfl, rfl, rfl, rfl, rfl, rfl, rfl, rfl, rfl⟩

/-- The rows of an item's versions are read as its versions, by induction on them. -/
private theorem map_importedVersions {versions : List BankVersion} {i : Nat}
    (numbered : versions.map BankVersion.versionNo =
      (List.range' (i + 1) versions.length).map Int.ofNat) :
    (importedVersions minted i versions).map toBankVersion = versions := by
  induction versions generalizing i with
  | nil => rfl
  | cons version rest inductionHypothesis =>
      rw [List.map_cons, List.length_cons, List.range'_succ, List.map_cons, List.cons.injEq]
        at numbered
      show toBankVersion (importedVersion minted version i) ::
        (importedVersions minted (i + 1) rest).map toBankVersion = _
      rw [toBankVersion_importedVersion numbered.1, inductionHypothesis numbered.2]

private theorem allVersions_imported (movable : Movable item) {tags : List QuestionSkill}
    (imported : Imported minted item tags rows) : allVersions rows = item.versions := by
  unfold allVersions
  rw [imported.versions, map_importedVersions movable.numbered]
  apply List.Pairwise.insertionSort_eq
  apply (List.pairwise_map.mp movable.fits.ascending).imp
  intro left right ascends
  exact le_of_lt ascends

/-- The question of an item is exported as the item. -/
private theorem alike_exported (ids : (bank.skills.map SkillRow.id).Nodup) (movable : Movable item)
    (visible : ∀ skill ∈ item.skills, ∃ row ∈ bank.skills, row.key = skill.key)
    (imported : Imported minted item (tagsOf bank item) rows) (ref : JsString) :
    Alike item (exportedItem ref (keyById bank) rows) where
  same := by
    unfold exportedItem
    rw [allVersions_imported movable imported, imported.kind, imported.status,
      imported.sourceLicense, imported.externalRef]
  skills := exportedSkills_perm ids visible imported.skills

/-- The versions of an imported question are numbered, and under identifiers of their own. -/
private theorem imported_versions {tags : List QuestionSkill}
    (imported : Imported minted item tags rows) :
    (rows.versions.map VersionRow.id).Nodup ∧ (rows.versions.map VersionRow.versionNo).Nodup := by
  have mapped {α : Type} (field : VersionRow → α) (of : Nat → α)
      (reads : ∀ version i, field (importedVersion minted version i) = of i) :
      rows.versions.map field = (List.range' 0 item.versions.length).map of := by
    rw [imported.versions, importedVersions, List.map_map, ← List.zipIdx_map_snd 0 item.versions,
      List.map_map]
    apply List.map_congr_left
    intro entry _
    exact reads entry.1 entry.2
  constructor
  · rw [mapped VersionRow.id minted.versionIds fun _ _ => rfl]
    exact List.Nodup.map minted.distinct List.nodup_range'
  · rw [mapped VersionRow.versionNo (· + 1) fun _ _ => rfl]
    exact List.Nodup.map (add_left_injective 1) List.nodup_range'

variable {items : List (Entry × Minted)} {written : List (QuestionId × QuestionRows)}

private theorem mem_imports (imports : List.Forall₂ (IsImport bank) items written)
    {question : QuestionId × QuestionRows} (inside : question ∈ written) :
    ∃ entry ∈ items, IsImport bank entry question := by
  induction imports with
  | nil => cases inside
  | @cons entry _ _ _ imported _ inductionHypothesis =>
      cases List.mem_cons.mp inside with
      | inl same => exact ⟨entry, List.mem_cons_self, same ▸ imported⟩
      | inr later =>
          obtain ⟨origin, among, alike⟩ := inductionHypothesis later
          exact ⟨origin, List.mem_cons_of_mem _ among, alike⟩

private theorem map_written {α : Type} (imports : List.Forall₂ (IsImport bank) items written)
    {field : QuestionId × QuestionRows → α} {of : Minted → α}
    (reads : ∀ {entry question}, IsImport bank entry question → field question = of entry.2) :
    written.map field = items.map fun entry => of entry.2 := by
  induction imports with
  | nil => rfl
  | cons imported _ inductionHypothesis =>
      rw [List.map_cons, List.map_cons, reads imported, inductionHypothesis]

/-- Every question is listed, in the order of the items. -/
private theorem listQuestions_written (imports : List.Forall₂ (IsImport bank) items written)
    (increasing : items.Pairwise fun earlier later => earlier.2.createdAt < later.2.createdAt) :
    listQuestions { bank with questions := written } ⟨none, none⟩ = written := by
  have listed : written.filter (fun entry => isListed ⟨none, none⟩ entry.2) = written := by
    rw [List.filter_eq_self]
    intro question inside
    obtain ⟨entry, _, imported⟩ := mem_imports imports inside
    simp [isListed, imported.2.active]
  unfold listQuestions
  rw [listed]
  apply List.Pairwise.insertionSort_eq
  have instants : written.map (fun question => question.2.createdAt) =
      items.map fun entry => entry.2.createdAt :=
    map_written imports fun imported => imported.2.createdAt
  have ascends : (written.map fun question => question.2.createdAt).Pairwise (· < ·) := by
    rw [instants]
    exact List.pairwise_map.mpr increasing
  apply (List.pairwise_map.mp ascends).imp
  intro left right earlier
  exact .inl earlier

/-- The questions are exported one by one as the items, by induction on them. -/
private theorem alike_written (ids : (bank.skills.map SkillRow.id).Nodup)
    (movable : ∀ entry ∈ items, Movable entry.1.item)
    (visible : ∀ entry ∈ items, ∀ skill ∈ entry.1.item.skills,
      ∃ row ∈ bank.skills, row.key = skill.key)
    (imports : List.Forall₂ (IsImport bank) items written) (start : Nat) :
    List.Forall₂ Alike (items.map fun entry => entry.1.item)
      ((written.zipIdx start).flatMap fun (entry, index) =>
        if allVersions entry.2 = [] then []
        else [exportedItem (positionalRef index) (keyById bank) entry.2]) := by
  induction imports generalizing start with
  | nil => exact .nil
  | @cons entry question items written imported _ inductionHypothesis =>
      have mine := movable entry List.mem_cons_self
      have some : allVersions question.2 ≠ [] := by
        rw [allVersions_imported mine imported.2]
        exact List.ne_nil_of_length_pos mine.fits.versionCount.1
      rw [List.zipIdx_cons, List.flatMap_cons, List.map_cons]
      simp only [if_neg some]
      refine .cons ?_ ?_
      · exact alike_exported ids mine (visible entry List.mem_cons_self) imported.2 _
      · exact inductionHypothesis
          (fun other inside => movable other (List.mem_cons_of_mem _ inside))
          (fun other inside => visible other (List.mem_cons_of_mem _ inside)) (start + 1)

end Export

/-! ### The round trip -/

/-- A list of items that were checked, each licensed, numbered from one and in hundredths, with what
the clock and the database supply: every identifier minted once, one instant after the other. -/
structure Transferable (bank : BankState) (items : List (Entry × Minted)) : Prop where
  accepted : ∀ entry ∈ items, ∃ value, checkBankItem value entry.1.index = .ok entry.1.item
  licensed : ∀ entry ∈ items, entry.1.item.sourceLicense ≠ none
  numbered : ∀ entry ∈ items, entry.1.item.versions.map BankVersion.versionNo =
    (List.range' 1 entry.1.item.versions.length).map Int.ofNat
  scores : ∀ entry ∈ items, ∀ version ∈ entry.1.item.versions, ExactVersion version
  weights : ∀ entry ∈ items, ∀ skill ∈ entry.1.item.skills, IsHundredths skill.weight
  visible : ∀ entry ∈ items, ∀ skill ∈ entry.1.item.skills,
    ∃ row ∈ bank.skills, row.key = skill.key
  minted : (items.map fun entry => entry.2.questionId).Nodup
  increasing : items.Pairwise fun earlier later => earlier.2.createdAt < later.2.createdAt

/-- Imported into an organisation without questions, every item is created, and the export returns
the items in their order, alike but for their refs and the order of their skills. -/
theorem import_export {bank : BankState} {items : List (Entry × Minted)} (licence : JsString)
    (ids : (bank.skills.map SkillRow.id).Nodup) (empty : bank.questions = [])
    (transferable : Transferable bank items) :
    (importBankItems ⟨licence, []⟩ bank items).2 =
        ⟨items.map fun entry => ⟨entry.1.index, entry.1.item.ref, entry.2.questionId⟩, []⟩ ∧
      List.Forall₂ Alike (items.map fun entry => entry.1.item)
        (exportBankByPages (importBankItems ⟨licence, []⟩ bank items).1 ⟨none, none⟩) := by
  have movable : ∀ entry ∈ items, Movable entry.1.item := by
    intro entry inside
    obtain ⟨value, checked⟩ := transferable.accepted entry inside
    exact ⟨accepted_iff_fits.mp (checkBankItem_accepted checked),
      Option.isSome_iff_ne_none.mpr (transferable.licensed entry inside),
      transferable.numbered entry inside, transferable.scores entry inside,
      transferable.weights entry inside⟩
  have fresh : (bank.questions.map Prod.fst ++
      items.map fun entry => entry.2.questionId).Nodup := by
    rw [empty]
    exact transferable.minted
  obtain ⟨written, last, imports, outcome⟩ :=
    importBankItems_ok licence ids movable transferable.visible fresh
  refine ⟨outcome, ?_⟩
  rw [empty, List.nil_append] at last
  rw [last, exportBankByPages_eq]
  · unfold exportBank
    rw [listQuestions_written imports transferable.increasing]
    exact alike_written ids movable transferable.visible imports 0
  · have minted : written.map Prod.fst = items.map fun entry => entry.2.questionId :=
      map_written imports fun imported => imported.1
    show (written.map Prod.fst).Nodup
    rw [minted]
    exact transferable.minted
  · intro question inside
    obtain ⟨entry, _, imported⟩ := mem_imports imports inside
    exact imported_versions imported.2

/-! ### Two items -/

/-- A version that asks something of a mark. -/
def askedVersion (versionNo : Int) (published : Bool) (promptMd : JsString) : BankVersion :=
  { versionNo, published, promptMd, locale := js "en", explanationMd := none, difficulty := 1
    estSeconds := 1, maxScore := 1, negativeScore := 0, options := [], codingSpec := none
    testCases := [], answerKeys := [] }

/-- A published question with a draft behind it, and a draft. -/
def twoItems : List BankItem :=
  [⟨js "a", .subjective, .published, some (js "MIT"), none, [⟨js "sql", 1⟩, ⟨js "joins", 2⟩],
      [askedVersion 1 true (js "Why?"), askedVersion 2 false (js "How?")]⟩,
    ⟨js "b", .subjective, .draft, some (js "CC-BY-4.0"), some (js "set/1"), [],
      [askedVersion 1 false (js "When?")]⟩]

/-- An organisation that sees both skills. -/
def skilledBank : BankState :=
  ⟨[⟨js "1", true, none, js "joins", js "Joins", none⟩,
    ⟨js "2", false, none, js "sql", js "SQL", none⟩], []⟩

/-- Versions under the digits of their positions, a second after each other. -/
def mintedAt (questionId : QuestionId) (createdAt : Instant) : Minted where
  questionId := questionId
  createdAt := createdAt
  stampedAt := createdAt
  versionIds i := List.replicate i (unit 'v')
  distinct := List.replicate_left_injective _

def twoEntries : List (Entry × Minted) :=
  (twoItems.zipIdx.map fun (item, index) => (⟨index, item⟩ : Entry)).zip
    [mintedAt (js "p") 1000, mintedAt (js "q") 2000]

private theorem isHundredths_whole : IsHundredths 0 ∧ IsHundredths 1 ∧ IsHundredths 2 :=
  ⟨⟨0, by decide +kernel⟩, ⟨100, by decide +kernel⟩, ⟨200, by decide +kernel⟩⟩

private theorem exact_askedVersions :
    ∀ entry ∈ twoEntries, ∀ version ∈ entry.1.item.versions, ExactVersion version := by
  have asked : ∀ entry ∈ twoEntries, ∀ version ∈ entry.1.item.versions,
      version = askedVersion version.versionNo version.published version.promptMd := by
    decide +kernel
  intro entry inside version member
  rw [asked entry inside version member]
  exact ⟨isHundredths_whole.2.1, isHundredths_whole.1, nofun, nofun, nofun⟩

/-- Both items come back. -/
theorem import_export_example :
    List.Forall₂ Alike twoItems
      (exportBankByPages (importBankItems ⟨js "MIT", []⟩ skilledBank twoEntries).1
        ⟨none, none⟩) := by
  have checked : ∀ entry ∈ twoEntries,
      checkBankItem (BankItemSchema.encode entry.1.item) entry.1.index = .ok entry.1.item := by
    decide +kernel
  have marks : ∀ entry ∈ twoEntries, ∀ skill ∈ entry.1.item.skills,
      skill.weight = 1 ∨ skill.weight = 2 := by
    decide +kernel
  have transferable : Transferable skilledBank twoEntries :=
    { accepted := fun entry inside => ⟨_, checked entry inside⟩
      licensed := by decide +kernel
      numbered := by decide +kernel
      scores := exact_askedVersions
      weights := fun entry inside skill member => by
        cases marks entry inside skill member with
        | inl one => exact one ▸ isHundredths_whole.2.1
        | inr two => exact two ▸ isHundredths_whole.2.2
      visible := by decide +kernel
      minted := by decide +kernel
      increasing := by decide +kernel }
  exact (import_export (js "MIT") (by decide) rfl transferable).2

end Assaybank.Jobs.Transfer
