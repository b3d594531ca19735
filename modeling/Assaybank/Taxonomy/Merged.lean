import Assaybank.Taxonomy.Tables

/-!
Owns what a merge leaves of the references to the skill it removes.

Contract: tags, requirements and the organisation's own children move to the target, and nothing
else changes (`skills_merged`, `moves_moveReferences`). The rules of the sections are not rewritten,
so a merge moves every reference exactly where no rule lists the skill (`merge_moves_all_iff`).
-/

namespace Assaybank.Taxonomy

open Assaybank.Runtime Assaybank.Library Assaybank.Contracts Assaybank.Domain
open Assaybank.Bank (SkillRow JobRoleSkill)
open Assaybank.Library.ReadCommitted

/-! ### What a merge should do -/

section Moves

variable (sourceId targetId : SkillId)

/-- Every child of the source is one of the target, and every other skill stays as it was. -/
structure ChildrenMove (before after : List SkillRow) : Prop where
  gone : ∀ skill ∈ after, skill.id ≠ sourceId ∧ skill.parentId ≠ some sourceId
  moved : ∀ skill ∈ before, skill.id ≠ sourceId → skill.parentId = some sourceId →
    { skill with parentId := some targetId } ∈ after
  kept : ∀ skill ∈ before, skill.id ≠ sourceId → skill.parentId ≠ some sourceId → skill ∈ after
  onlyMoved : ∀ skill ∈ after, skill ∈ before ∨ ∃ old ∈ before, old.parentId = some sourceId ∧
    skill = { old with parentId := some targetId }

/-- Every rule that lists the source lists the target once instead, and every other stays. -/
structure RulesMove (before after : List SectionRuleRow) : Prop where
  gone : ∀ row ∈ after, sourceId ∉ row.rule.skillIds
  moved : ∀ row ∈ before, sourceId ∈ row.rule.skillIds → ∃ now ∈ after, now.id = row.id ∧
    now.rule.skillIds.count targetId = 1 ∧
    ∀ other, other ≠ sourceId → other ≠ targetId →
      now.rule.skillIds.count other = row.rule.skillIds.count other
  kept : ∀ row ∈ before, sourceId ∉ row.rule.skillIds → row ∈ after
  onlyMoved : ∀ row ∈ after, row ∈ before ∨ ∃ old ∈ before, old.id = row.id ∧
    sourceId ∈ old.rule.skillIds

/-- Nothing refers to the source, what did refers to the target once, and nothing else changed. -/
structure AllMoved (before after : Store) : Prop where
  tags : tagTable.Moves sourceId targetId before.questionSkills after.questionSkills
  requirements : requirementTable.Moves sourceId targetId before.jobRoleSkills after.jobRoleSkills
  children : ChildrenMove sourceId targetId before.skills after.skills
  rules : RulesMove sourceId targetId before.sectionRules after.sectionRules

end Moves

/-! ### What it does -/

/-- A skill once its source is merged away: own children follow, global ones lose their parent. -/
def repointed (sourceId targetId : SkillId) (skill : SkillRow) : SkillRow :=
  if skill.parentId = some sourceId then
    if skill.isGlobal then { skill with parentId := none }
    else { skill with parentId := some targetId }
  else skill

/-- The tables after a merge. -/
def Store.merged (store : Store) (sourceId targetId : SkillId) : Store where
  skills := (store.skills.filter fun skill => skill.id ≠ sourceId).map (repointed sourceId targetId)
  questionSkills := tagTable.moveReferences sourceId targetId store.questionSkills
  jobRoleSkills := requirementTable.moveReferences sourceId targetId store.jobRoleSkills
  sectionRules := store.sectionRules

section Views

variable (store : Store)

theorem view_tags (rows : List QuestionTag) :
    engine.view (rows.map .tag) store =
      { store with questionSkills := rows.foldl (insertAbsent tagTable.key) store.questionSkills } := by
  induction rows generalizing store with
  | nil => rfl
  | cons row rest inductionHypothesis => exact inductionHypothesis (Write.apply store (.tag row))

theorem view_requirements (rows : List JobRoleSkill) :
    engine.view (rows.map .requirement) store =
      { store with
        jobRoleSkills := rows.foldl (insertAbsent requirementTable.key) store.jobRoleSkills } := by
  induction rows generalizing store with
  | nil => rfl
  | cons row rest inductionHypothesis =>
      exact inductionHypothesis (Write.apply store (.requirement row))

/-- Re-parenting skills, by their ids. -/
theorem view_reparent (ids : List SkillId) (targetId : SkillId) :
    engine.view (ids.map fun id => .reparent id targetId) store =
      { store with
        skills := store.skills.map fun skill =>
          if skill.id ∈ ids then { skill with parentId := some targetId } else skill } := by
  induction ids generalizing store with
  | nil =>
      show store = _
      simp
  | cons id rest inductionHypothesis =>
      show engine.view (rest.map fun id => .reparent id targetId)
        (Write.apply store (.reparent id targetId)) = _
      rw [inductionHypothesis]
      simp only [Write.apply, List.map_map, Store.mk.injEq, and_self, and_true]
      apply List.map_congr_left
      intro skill _
      by_cases here : skill.id = id
      · simp [here]
      · simp [here]

theorem view_append (first second : List Write) :
    engine.view (first ++ second) store = engine.view second (engine.view first store) :=
  List.foldl_append

end Views

section Merge

variable {store : Store} {sourceId targetId : SkillId} {result : MergeSkillsResult}
  {wrote : List Write}

/-- The own children of the source. -/
private def movedIds (store : Store) (sourceId : SkillId) : List SkillId :=
  ((store.children sourceId).filter fun skill => !skill.isGlobal).map SkillRow.id

/-- The skills once the own children of the source are the target's. -/
private def reparented (store : Store) (sourceId targetId : SkillId) : List SkillRow :=
  store.skills.map fun skill =>
    if skill.id ∈ movedIds store sourceId then { skill with parentId := some targetId } else skill

private theorem mem_movedIds (legal : Legal store) {skill : SkillRow} (inside : skill ∈ store.skills) :
    skill.id ∈ movedIds store sourceId ↔
      skill.parentId = some sourceId ∧ skill.isGlobal = false := by
  simp only [movedIds, Store.children, List.mem_map, List.mem_filter, beq_iff_eq,
    Bool.not_eq_true']
  constructor
  · rintro ⟨other, ⟨⟨member, child⟩, own⟩, same⟩
    cases List.inj_on_of_nodup_map legal.skillIds member inside same
    exact ⟨child, own⟩
  · rintro ⟨child, own⟩
    exact ⟨skill, ⟨⟨inside, child⟩, own⟩, rfl⟩

/-- The children the source has left are its global ones. -/
private theorem mem_orphanIds (legal : Legal store) (apart : sourceId ≠ targetId) {skill : SkillRow}
    (inside : skill ∈ store.skills) :
    skill.id ∈ ((reparented store sourceId targetId).filter fun skill =>
        skill.parentId == some sourceId).map SkillRow.id ↔
      skill.parentId = some sourceId ∧ skill.isGlobal = true := by
  simp only [reparented, List.mem_map, List.mem_filter, beq_iff_eq]
  constructor
  · rintro ⟨_, ⟨⟨other, member, rfl⟩, child⟩, same⟩
    split at child
    · exact absurd (Option.some.inj child).symm apart
    · rename_i unmoved
      rw [if_neg unmoved] at same
      cases List.inj_on_of_nodup_map legal.skillIds member inside same
      refine ⟨child, Bool.of_not_eq_false fun own => ?_⟩
      exact unmoved ((mem_movedIds legal inside).mpr ⟨child, own⟩)
  · rintro ⟨child, shared⟩
    refine ⟨skill, ⟨⟨skill, inside, if_neg ?_⟩, child⟩, rfl⟩
    intro moved
    rw [((mem_movedIds legal inside).mp moved).2] at shared
    cases shared

private theorem map_filter_map {rows : List SkillRow} {first last both : SkillRow → SkillRow}
    (sameId : ∀ row, (first row).id = row.id) (each : ∀ row ∈ rows, last (first row) = both row) :
    ((rows.map first).filter fun row => row.id ≠ sourceId).map last =
      (rows.filter fun row => row.id ≠ sourceId).map both := by
  have kept : ((fun row : SkillRow => decide (row.id ≠ sourceId)) ∘ first) =
      fun row => decide (row.id ≠ sourceId) := by
    funext row
    rw [Function.comp_apply, sameId]
  rw [List.filter_map, List.map_map, kept]
  apply List.map_congr_left
  intro row inside
  exact each row (List.mem_filter.mp inside).1

/-- Re-parented, and without the source, the skills are those of the merged tables. -/
private theorem skills_merged (legal : Legal store) (apart : sourceId ≠ targetId) :
    ((reparented store sourceId targetId).filter fun skill => skill.id ≠ sourceId).map (fun skill =>
        if skill.id ∈ ((reparented store sourceId targetId).filter fun skill =>
          skill.parentId == some sourceId).map SkillRow.id
        then { skill with parentId := none } else skill) =
      (store.merged sourceId targetId).skills := by
  apply map_filter_map
  · intro skill
    split <;> rfl
  · intro skill inside
    have sameId : (if skill.id ∈ movedIds store sourceId then
        { skill with parentId := some targetId } else skill).id = skill.id := by
      split <;> rfl
    rw [sameId, if_congr (mem_orphanIds legal apart inside) rfl rfl,
      if_congr (mem_movedIds legal inside) rfl rfl]
    unfold repointed
    by_cases child : skill.parentId = some sourceId
    · cases shared : skill.isGlobal with
      | true => simp [child, shared]
      | false => simp [child]
    · simp [child]

/-- What a merge that is not refused has read of the two skills. -/
private theorem mergeSkills_alone
    (ends : (mergeSkills sourceId targetId).alone engine store [] = .ok (result, wrote)) :
    sourceId ≠ targetId ∧
      (∃ source, store.skill? sourceId = some source ∧ source.isGlobal = false) ∧
      (rewriteReferences sourceId targetId).alone engine store [] = .ok (result, wrote) := by
  unfold mergeSkills at ends
  split at ends
  · cases ends
  · rename_i apart
    refine ⟨apart, ?_⟩
    rw [readSkill, alone_bind, alone_query] at ends
    change (Tx.alone engine store _ []) = _ at ends
    have visible : engine.view [] store = store := rfl
    cases found : store.skill? sourceId with
    | none =>
        simp only [visible, found, Option.map_none] at ends
        cases ends
    | some source =>
        simp only [visible, found, Option.map_some] at ends
        rw [readSkill, alone_bind, alone_query] at ends
        change (Tx.alone engine store _ []) = _ at ends
        cases there : store.skill? targetId with
        | none =>
            simp only [visible, there, Option.map_none] at ends
            cases ends
        | some target =>
            simp only [visible, there, Option.map_some] at ends
            rw [alone_bind, alone_ofExcept] at ends
            unfold checkMerge at ends
            split at ends
            · cases ends
            · rename_i own
              split at ends
              · cases ends
              · split at ends
                · cases ends
                · exact ⟨⟨source, rfl, Bool.eq_false_iff.mpr own⟩, ends⟩

/-- What the statements of a merge write, together. -/
private theorem rewrite_alone (legal : Legal store) (apart : sourceId ≠ targetId) {source : SkillRow}
    (found : store.skill? sourceId = some source) (own : source.isGlobal = false)
    (ends : (rewriteReferences sourceId targetId).alone engine store [] = .ok (result, wrote)) :
    engine.view wrote store = store.merged sourceId targetId := by
  let tags := tagTable.copies sourceId targetId store.questionSkills
  let requirements := requirementTable.copies sourceId targetId store.jobRoleSkills
  let tagged : Store := { store with questionSkills := store.questionSkills ++ tags }
  let required : Store := { tagged with jobRoleSkills := store.jobRoleSkills ++ requirements }
  let adopted : Store := { required with skills := reparented store sourceId targetId }
  have afterTags : engine.view ([] ++ tags.map .tag) store = tagged := by
    rw [List.nil_append, view_tags, foldl_insertAbsent]
    · exact ReferenceTable.nodup_copies legal.tagPairs
    · intro row copied
      exact (ReferenceTable.mem_copies copied).2
  have afterRequirements : engine.view ([] ++ tags.map .tag ++ requirements.map .requirement)
      store = required := by
    rw [view_append, afterTags, view_requirements, foldl_insertAbsent]
    · exact ReferenceTable.nodup_copies legal.requirementPairs
    · intro row copied
      exact (ReferenceTable.mem_copies copied).2
  have afterChildren : engine.view ([] ++ tags.map .tag ++ requirements.map .requirement ++
      ((store.children sourceId).filter fun skill => !skill.isGlobal).map fun skill =>
        .reparent skill.id targetId) store = adopted := by
    have byId : (((store.children sourceId).filter fun skill => !skill.isGlobal).map fun skill =>
        Write.reparent skill.id targetId) =
        (movedIds store sourceId).map fun id => .reparent id targetId := by
      rw [movedIds, List.map_map]
      rfl
    rw [view_append, afterRequirements, byId, view_reparent]
    rfl
  have present : (adopted.skills.any fun skill => skill.id == sourceId && !skill.isGlobal) = true := by
    have named : source.id = sourceId := by simpa using List.find?_some found
    refine List.any_eq_true.mpr ⟨_, List.mem_map_of_mem (List.mem_of_find?_eq_some found), ?_⟩
    split <;> simp [named, own]
  have ended : wrote = [] ++ tags.map .tag ++ requirements.map .requirement ++
      (((store.children sourceId).filter fun skill => !skill.isGlobal).map fun skill =>
        .reparent skill.id targetId) ++
      [.delete sourceId ((adopted.children sourceId).map SkillRow.id)] := by
    unfold rewriteReferences at ends
    rw [alone_bind, copyTags, alone_execute] at ends
    change Tx.alone engine store _ ([] ++ tags.map Write.tag) = _ at ends
    rw [alone_bind, copyRequirements, alone_execute, afterTags] at ends
    change Tx.alone engine store _ ([] ++ tags.map Write.tag ++ requirements.map .requirement) = _
      at ends
    rw [alone_bind, reparentChildren, alone_execute, afterRequirements] at ends
    change Tx.alone engine store _ ([] ++ tags.map Write.tag ++ requirements.map .requirement ++
      ((store.children sourceId).filter fun skill => !skill.isGlobal).map fun skill =>
        .reparent skill.id targetId) = _ at ends
    rw [alone_bind, deleteSkill, alone_execute, afterChildren, if_pos present] at ends
    cases ends
    rfl
  rw [ended, view_append, afterChildren]
  show Write.apply adopted (.delete sourceId ((adopted.children sourceId).map SkillRow.id)) = _
  unfold Write.apply Store.merged
  rw [Store.mk.injEq]
  exact ⟨skills_merged legal apart, rfl, rfl, rfl⟩

/-- A merge that commits is of an own skill, and leaves the merged tables. -/
theorem merge_committed (legal : Legal store) {after : Store}
    (merged : (mergeSkills sourceId targetId).committed engine store = some (result, after)) :
    sourceId ≠ targetId ∧ (∃ source, store.skill? sourceId = some source ∧ source.isGlobal = false) ∧
      after = store.merged sourceId targetId := by
  unfold Tx.committed at merged
  split at merged
  · rename_i ends
    split at merged
    · cases merged
      obtain ⟨apart, ⟨source, found, own⟩, rewritten⟩ := mergeSkills_alone ends
      exact ⟨apart, ⟨source, found, own⟩, rewrite_alone legal apart found own rewritten⟩
    · cases merged
  · cases merged

/-! ### What it leaves -/

private theorem repointed_of_child {skill : SkillRow} (child : skill.parentId = some sourceId)
    (own : skill.isGlobal = false) :
    repointed sourceId targetId skill = { skill with parentId := some targetId } := by
  rw [repointed, if_pos child, if_neg (by simp [own])]

private theorem repointed_of_other {skill : SkillRow} (other : skill.parentId ≠ some sourceId) :
    repointed sourceId targetId skill = skill := if_neg other

private theorem mem_merged {skill : SkillRow} (inside : skill ∈ store.skills)
    (apart : skill.id ≠ sourceId) :
    repointed sourceId targetId skill ∈ (store.merged sourceId targetId).skills :=
  List.mem_map_of_mem (List.mem_filter.mpr ⟨inside, decide_eq_true apart⟩)

/-- The children move where all of them are the organisation's own. -/
theorem childrenMove_merged (apart : sourceId ≠ targetId)
    (own : ∀ skill ∈ store.skills, skill.parentId = some sourceId → skill.isGlobal = false) :
    ChildrenMove sourceId targetId store.skills (store.merged sourceId targetId).skills where
  gone skill inside := by
    obtain ⟨old, member, rfl⟩ := List.mem_map.mp inside
    obtain ⟨known, kept⟩ := List.mem_filter.mp member
    by_cases child : old.parentId = some sourceId
    · rw [repointed_of_child child (own old known child)]
      exact ⟨of_decide_eq_true kept, fun same => apart (Option.some.inj same).symm⟩
    · rw [repointed_of_other child]
      exact ⟨of_decide_eq_true kept, child⟩
  moved skill inside other child := by
    have landed : repointed sourceId targetId skill ∈ (store.merged sourceId targetId).skills :=
      mem_merged inside other
    rw [repointed_of_child child (own skill inside child)] at landed
    exact landed
  kept skill inside other elsewhere := by
    have landed : repointed sourceId targetId skill ∈ (store.merged sourceId targetId).skills :=
      mem_merged inside other
    rw [repointed_of_other elsewhere] at landed
    exact landed
  onlyMoved skill inside := by
    obtain ⟨old, member, rfl⟩ := List.mem_map.mp inside
    have known := (List.mem_filter.mp member).1
    by_cases child : old.parentId = some sourceId
    · exact .inr ⟨old, known, child, repointed_of_child child (own old known child)⟩
    · rw [repointed_of_other child]
      exact .inl known

/-- A global child does not move. -/
theorem own_of_childrenMove (legal : Legal store)
    (moves : ChildrenMove sourceId targetId store.skills (store.merged sourceId targetId).skills)
    {skill : SkillRow} (inside : skill ∈ store.skills) (other : skill.id ≠ sourceId)
    (child : skill.parentId = some sourceId) : skill.isGlobal = false := by
  obtain ⟨old, member, same⟩ := List.mem_map.mp (moves.moved skill inside other child)
  have sameId : old.id = skill.id := by
    have ids := congrArg SkillRow.id same
    unfold repointed at ids
    split at ids
    · split at ids
      · exact ids
      · exact ids
    · exact ids
  cases List.inj_on_of_nodup_map legal.skillIds (List.mem_filter.mp member).1 inside sameId
  apply Bool.eq_false_iff.mpr
  intro shared
  have parents := congrArg SkillRow.parentId same
  rw [repointed, if_pos child, if_pos shared] at parents
  cases parents

/-- A merge moves every reference exactly where no rule of a section lists the source, and no global
skill is its child. -/
theorem merge_moves_all_iff (legal : Legal store) {after : Store}
    (merged : (mergeSkills sourceId targetId).committed engine store = some (result, after)) :
    AllMoved sourceId targetId store after ↔
      (∀ row ∈ store.sectionRules, sourceId ∉ row.rule.skillIds) ∧
        ∀ skill ∈ store.skills, skill.parentId = some sourceId → skill.isGlobal = false := by
  obtain ⟨apart, ⟨source, found, ownSource⟩, rfl⟩ := merge_committed legal merged
  constructor
  · intro moves
    refine ⟨moves.rules.gone, ?_⟩
    intro skill inside child
    by_cases itself : skill.id = sourceId
    · have named : source.id = sourceId := by simpa using List.find?_some found
      cases List.inj_on_of_nodup_map legal.skillIds inside (List.mem_of_find?_eq_some found)
        (itself.trans named.symm)
      exact ownSource
    · exact own_of_childrenMove legal moves.children inside itself child
  · rintro ⟨unlisted, own⟩
    refine ⟨ReferenceTable.moves_moveReferences legal.tagPairs apart,
      ReferenceTable.moves_moveReferences legal.requirementPairs apart,
      childrenMove_merged apart own, ?_⟩
    exact
      { gone := unlisted
        moved := fun row inside listed => absurd listed (unlisted row inside)
        kept := fun row inside _ => inside
        onlyMoved := fun row inside => .inl inside }

end Merge

/-! ### A duplicate skill -/

def python : SkillRow := ⟨js "1", false, none, js "python", js "Python", none⟩

def python3 : SkillRow := ⟨js "2", false, none, js "python3", js "Python 3", none⟩

/-- A skill twice, with a question tagged with both, a role that requires the duplicate, and a child
of the duplicate. -/
def duplicated : Store where
  skills := [python, python3, ⟨js "3", false, some python3.id, js "asyncio", js "asyncio", none⟩]
  questionSkills := [⟨js "q", python.id, 1⟩, ⟨js "q", python3.id, 2⟩, ⟨js "r", python3.id, 1⟩]
  jobRoleSkills := [⟨js "role", python3.id, 1, none, none, true⟩]
  sectionRules := []

/-- The same, with an assessment composed from the role. -/
def composed : Store :=
  { duplicated with
    sectionRules := [⟨js "rule",
      { pickCount := 1, skillIds := [python3.id], kinds := [], minDifficulty := 1,
        maxDifficulty := 5, excludeSeenDays := 0, scorePerQuestion := 1 }⟩] }

private theorem merge_accepted (store : Store) (accepted :
    ((mergeSkills python3.id python.id).committed engine store).isSome = true) :
    ∃ result after,
      (mergeSkills python3.id python.id).committed engine store = some (result, after) := by
  obtain ⟨⟨result, after⟩, merged⟩ := Option.isSome_iff_exists.mp accepted
  exact ⟨result, after, merged⟩

theorem merge_moves_all_iff_example :
    ∃ result after,
      (mergeSkills python3.id python.id).committed engine duplicated = some (result, after) ∧
        AllMoved python3.id python.id duplicated after := by
  obtain ⟨result, after, merged⟩ := merge_accepted duplicated (by decide +kernel)
  refine ⟨result, after, merged, ?_⟩
  exact (merge_moves_all_iff (by decide) merged).mpr ⟨by decide, by decide⟩

/-- The rule of the assessment still lists the skill that is gone. -/
theorem merged_skill_still_listed :
    Legal composed ∧ ∃ result after,
      (mergeSkills python3.id python.id).committed engine composed = some (result, after) ∧
        (after.skill? python3.id).isNone ∧
        (after.sectionRules.any fun row => row.rule.skillIds.contains python3.id) = true ∧
        ¬AllMoved python3.id python.id composed after := by
  obtain ⟨result, after, merged⟩ := merge_accepted composed (by decide +kernel)
  obtain ⟨_, _, rfl⟩ := merge_committed (by decide) merged
  refine ⟨by decide, result, _, merged, by decide +kernel, by decide +kernel, ?_⟩
  intro moves
  exact moves.rules.gone _ List.mem_cons_self List.mem_cons_self

end Assaybank.Taxonomy
