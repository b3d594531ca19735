import Assaybank.Taxonomy.Merged
import Mathlib.Logic.Relation

/-!
Owns the depth of the taxonomy under any number of interleaved transactions.

Contract: the forest keeps its two levels in a run whose transactions commit to a store that still
passes the check each of them made (`two_levels_kept`). Nothing that a transaction locks keeps its
check true until then: a skill created between the check of a merge and its rewrite becomes a third
level, and one merge may turn another's target into its own parent (`forest_broken`).
-/

namespace Assaybank.Taxonomy

open Assaybank.Runtime Assaybank.Library Assaybank.Contracts Assaybank.Domain
open Assaybank.Bank (SkillRow JobRoleSkill CreateSkillInput)
open Assaybank.Library.ReadCommitted (Engine Running Rules running_idle each_append sound_bind
  sound_map sound_pure sound_query sound_execute sound_fail sound_ofExcept run_committed
  committed_map)

/-! ### The program -/

inductive Request where
  | createSkill (input : CreateSkillInput) (id : SkillId)
  | mergeSkills (sourceId targetId : SkillId)

inductive Answer where
  | created (row : SkillRow)
  | merged (result : MergeSkillsResult)

def program : Request → SkillTransaction Answer
  | .createSkill input id => .created <$> createSkill input id
  | .mergeSkills sourceId targetId => .merged <$> mergeSkills sourceId targetId

abbrev State := ReadCommitted.State Store Write Key ApiError Request Answer
abbrev Event := ReadCommitted.Event Request
abbrev Session := ReadCommitted.Session Store Write ApiError Request Answer

/-- The state after some events, from a store on which nothing is under way. -/
def reach (store : Store) (events : List Event) : State :=
  (ReadCommitted.State.idle store : State).run engine program events

/-- What a merge commits with nothing beside it is reached. -/
theorem merge_reached {store after : Store} {sourceId targetId : SkillId}
    {result : MergeSkillsResult}
    (committed : (mergeSkills sourceId targetId).committed engine store = some (result, after)) :
    ∃ events, (reach store events).store = after ∧
      (reach store events).answered = [(.mergeSkills sourceId targetId, .merged result)] := by
  apply run_committed
  exact committed_map committed

/-! ### The forest -/

/-- No skill that has a parent is one. -/
def TwoLevels (store : Store) : Prop :=
  ∀ skill ∈ store.skills, skill.parentId.isSome = true →
    ∀ child ∈ store.skills, child.parentId ≠ some skill.id

instance (store : Store) : Decidable (TwoLevels store) :=
  inferInstanceAs (Decidable (∀ skill ∈ store.skills, _))

/-- One skill is the parent of another. -/
def ParentOf (store : Store) (parent child : SkillId) : Prop :=
  ∃ row ∈ store.skills, row.id = child ∧ row.parentId = some parent

/-- In a forest of two levels no skill is its own ancestor. -/
theorem not_own_ancestor {store : Store} (two : TwoLevels store) (id : SkillId) :
    ¬Relation.TransGen (ParentOf store) id id := by
  intro cycle
  obtain ⟨parent, _, row, inside, here, above⟩ := Relation.TransGen.tail'_iff.mp cycle
  obtain ⟨child, ⟨below, member, _, under⟩, _⟩ := Relation.TransGen.head'_iff.mp cycle
  apply two row inside (by rw [above]; rfl) below member
  rw [under, here]

/-- The check a transaction made before it wrote still holds of the store it commits to. -/
def CheckHolds (session : Session) (_ : Answer) (store : Store) : Prop :=
  match session.request with
  | .createSkill input _ => ∀ parentId ∈ input.parentId,
      ∃ parent ∈ store.skills, parent.id = parentId ∧ parent.parentId = none
  | .mergeSkills sourceId targetId => ∀ target ∈ store.skills, target.id = targetId →
      target.parentId ≠ some sourceId ∧
        (target.parentId = none ∨ store.children sourceId = [])

instance (session : Session) (a : Answer) (store : Store) :
    Decidable (CheckHolds session a store) := by
  unfold CheckHolds
  cases session.request <;> infer_instance

/-! ### What a transaction writes -/

/-- The writes of a merge: the children it re-parents are children of the source, whatever the
others commit while it holds them. -/
def Rewrites (sourceId targetId : SkillId) (wrote : List Write) (store : Store) : Prop :=
  ∃ (tags : List QuestionTag) (requirements : List JobRoleSkill) (moved : List SkillId)
    (last : List Write),
    wrote = tags.map .tag ++ requirements.map .requirement ++
      (moved.map fun id => .reparent id targetId) ++ last ∧
    (last = [] ∨ ∃ orphans, last = [.delete sourceId orphans]) ∧
    ∀ id ∈ moved, ∃ row ∈ store.skills, row.id = id ∧ row.parentId = some sourceId

def Settles (request : Request) (_ : Answer) (_ : List Store) (wrote : List Write) (store : Store) :
    Prop :=
  match request with
  | .createSkill input id => wrote = [.skill (newSkill input id)]
  | .mergeSkills sourceId targetId =>
      sourceId ≠ targetId ∧ Rewrites sourceId targetId wrote store

section Writes

variable {store now : Store} {wrote : List Write}

/-- A row that no write claims stays. -/
theorem kept_of_unclaimed {row : SkillRow} (writes : List Write) (inside : row ∈ store.skills)
    (unclaimed : Key.skill row.id ∉ engine.claims writes) :
    row ∈ (engine.view writes store).skills := by
  induction writes generalizing store with
  | nil => exact inside
  | cons write rest inductionHypothesis =>
      rw [Engine.claims, List.flatMap_cons, List.mem_append, not_or] at unclaimed
      refine inductionHypothesis ?_ unclaimed.2
      have mine : Key.skill row.id ∉ write.keys := unclaimed.1
      show row ∈ (Write.apply store write).skills
      cases write with
      | skill new => exact List.mem_append_left _ inside
      | tag new => exact inside
      | requirement new => exact inside
      | reparent child target =>
          have apart : row.id ≠ child := fun same => mine (by simp [Write.keys, same])
          exact List.mem_map.mpr ⟨row, inside, if_neg apart⟩
      | delete id orphans =>
          have apart : row.id ≠ id := fun same => mine (by simp [Write.keys, same])
          have parented : row.id ∉ orphans := fun orphan => mine (by simp [Write.keys, orphan])
          exact List.mem_map.mpr
            ⟨row, List.mem_filter.mpr ⟨inside, decide_eq_true apart⟩, if_neg parented⟩

/-- A row that is held stays, whatever the others commit. -/
theorem kept_of_others {row : SkillRow} (others : engine.Others wrote store now)
    (inside : row ∈ store.skills) (held : Key.skill row.id ∈ engine.claims wrote) :
    row ∈ now.skills := by
  obtain ⟨writes, apart, rfl⟩ := others
  exact kept_of_unclaimed writes inside fun claimed => apart _ claimed held

private theorem claims_append (first second : List Write) :
    engine.claims (first ++ second) = engine.claims first ++ engine.claims second :=
  List.flatMap_append

private theorem held_of_moved {id : SkillId} {moved : List SkillId} (targetId : SkillId)
    (inside : id ∈ moved) (before after : List Write) :
    Key.skill id ∈ engine.claims
      (before ++ (moved.map fun id => Write.reparent id targetId) ++ after) := by
  rw [claims_append, claims_append]
  apply List.mem_append_left
  apply List.mem_append_right
  exact List.mem_flatMap.mpr ⟨_, List.mem_map_of_mem inside, List.mem_cons_self⟩

private theorem view_silent (tags : List QuestionTag) (requirements : List JobRoleSkill) :
    (engine.view (tags.map .tag ++ requirements.map .requirement) store).skills = store.skills := by
  rw [view_append, view_requirements, view_tags]

end Writes

section Sound

variable {inv : Store → Prop} {store : Store} {seen : List Store} {sourceId targetId : SkillId}

/-- The statements of a rewrite hold the children they move. -/
private theorem sound_rewriteReferences :
    (rewriteReferences sourceId targetId).Sound engine inv
      (engine.Settled inv fun _ _ wrote store => Rewrites sourceId targetId wrote store)
      seen [] store := by
  rw [rewriteReferences, sound_bind, copyTags, sound_execute]
  intro tagging _ _
  rw [sound_bind, copyRequirements, sound_execute]
  intro requiring _ _
  rw [sound_bind, reparentChildren, sound_execute]
  intro moving _ _
  rw [sound_bind, deleteSkill, sound_execute]
  intro deleting heldMoved _
  rw [sound_pure]
  intro now held _
  simp only [List.nil_append] at heldMoved held ⊢
  generalize tagTable.copies sourceId targetId (engine.view [] tagging).questionSkills = tags
    at heldMoved held ⊢
  generalize requirementTable.copies sourceId targetId
    (engine.view (tags.map .tag) requiring).jobRoleSkills = requirements at heldMoved held ⊢
  have children : ((engine.view (tags.map Write.tag ++ requirements.map .requirement)
      moving).children sourceId) = moving.children sourceId := by
    rw [Store.children, view_silent, Store.children]
  rw [children] at heldMoved held ⊢
  let own := (moving.children sourceId).filter fun skill => !skill.isGlobal
  have byId : (own.map fun skill => Write.reparent skill.id targetId) =
      (own.map SkillRow.id).map fun id => .reparent id targetId := by
    rw [List.map_map]
    rfl
  have moved : ∀ id ∈ own.map SkillRow.id,
      ∃ row ∈ moving.skills, row.id = id ∧ row.parentId = some sourceId := by
    intro id inside
    obtain ⟨row, listed, rfl⟩ := List.mem_map.mp inside
    obtain ⟨member, child⟩ := List.mem_filter.mp (List.mem_filter.mp listed).1
    exact ⟨row, member, rfl, beq_iff_eq.mp child⟩
  change engine.Others (_ ++ own.map fun skill => Write.reparent skill.id targetId) _ _ at heldMoved
  change engine.Others ((_ ++ own.map fun skill => Write.reparent skill.id targetId) ++ _) _ _
    at held
  show Rewrites sourceId targetId
    ((_ ++ own.map fun skill => Write.reparent skill.id targetId) ++ _) now
  rw [byId] at heldMoved held ⊢
  refine ⟨tags, requirements, own.map SkillRow.id, _, rfl, ?_, ?_⟩
  · split
    · exact .inr ⟨_, rfl⟩
    · exact .inl rfl
  · intro id inside
    obtain ⟨row, member, rfl, child⟩ := moved id inside
    have locked := held_of_moved targetId inside (tags.map .tag ++ requirements.map .requirement) []
    rw [List.append_nil] at locked
    have still := kept_of_others heldMoved member locked
    exact ⟨row, kept_of_others held still (held_of_moved targetId inside _ _), rfl, child⟩

private theorem sound_mergeSkills :
    (mergeSkills sourceId targetId).Sound engine inv
      (engine.Settled inv fun _ _ wrote store =>
        sourceId ≠ targetId ∧ Rewrites sourceId targetId wrote store) seen [] store := by
  unfold mergeSkills
  split
  · exact sound_fail _
  · rename_i apart
    unfold readSkill
    rw [sound_bind, sound_query]
    intro first _ _
    split
    · exact sound_fail _
    · rw [sound_bind, sound_query]
      intro second _ _
      split
      · exact sound_fail _
      · rw [sound_bind, sound_ofExcept]
        intro _ _
        refine ReadCommitted.sound_mono ?_ sound_rewriteReferences
        intro result seen wrote store settled now others holds
        exact ⟨apart, settled now others holds⟩

/-- The check of a parent writes nothing. -/
private theorem sound_checkParent {parentId : Option SkillId}
    {post : Unit → List Store → List Write → Store → Prop}
    (ends : ∀ seen store, post () seen [] store) :
    (checkParent parentId).Sound engine inv post seen [] store := by
  cases parentId with
  | none =>
      rw [checkParent, sound_pure]
      exact ends _ _
  | some parentId =>
      rw [checkParent, sound_bind, sound_query]
      intro now _ _
      split
      · exact sound_fail _
      · split
        · exact sound_fail _
        · rw [sound_pure]
          exact ends _ _

private theorem sound_createSkill {input : CreateSkillInput} {id : SkillId} :
    (createSkill input id).Sound engine inv
      (engine.Settled inv fun _ _ wrote _ => wrote = [.skill (newSkill input id)])
      seen [] store := by
  rw [createSkill, sound_bind]
  apply sound_checkParent
  intro seen store
  split
  · exact sound_fail _
  · rw [sound_execute]
    intro _ _ _ _ _ _
    rfl

/-- Every request settles what it says. -/
theorem program_sound (request : Request) :
    (program request).Sound engine inv (engine.Settled inv (Settles request)) [] [] store := by
  cases request with
  | createSkill input id =>
      rw [program, sound_map]
      exact sound_createSkill
  | mergeSkills sourceId targetId =>
      rw [program, sound_map]
      exact sound_mergeSkills

end Sound

/-! ### What a commit keeps -/

section Commits

variable {store : Store} {sourceId targetId : SkillId} {wrote : List Write}

/-- A new skill under a parent that has none is a second level. -/
private theorem twoLevels_of_new (legal : Legal store) (two : TwoLevels store) {row : SkillRow}
    (after : Legal (engine.view [.skill row] store))
    (checked : ∀ parentId ∈ row.parentId,
      ∃ parent ∈ store.skills, parent.id = parentId ∧ parent.parentId = none) :
    TwoLevels (engine.view [.skill row] store) := by
  have fresh : row.id ∉ store.skills.map SkillRow.id := by
    have distinct : ((store.skills ++ [row]).map SkillRow.id).Nodup := after.skillIds
    rw [List.map_append, List.nodup_append] at distinct
    intro present
    exact distinct.2.2 row.id present row.id List.mem_cons_self rfl
  intro skill inside parented child member under
  cases List.mem_append.mp inside with
  | inr new =>
      -- nobody is a child of the new skill
      rw [List.mem_singleton.mp new] at under
      cases List.mem_append.mp member with
      | inl old => exact fresh (legal.parents child old row.id under)
      | inr itself =>
          rw [List.mem_singleton.mp itself] at under
          obtain ⟨parent, known, same, _⟩ := checked row.id under
          exact fresh (List.mem_map.mpr ⟨parent, known, same⟩)
  | inl old =>
      cases List.mem_append.mp member with
      | inl alsoOld => exact two skill old parented child alsoOld under
      | inr new =>
          rw [List.mem_singleton.mp new] at under
          obtain ⟨parent, known, same, top⟩ := checked skill.id under
          cases List.inj_on_of_nodup_map legal.skillIds known old same
          rw [top] at parented
          cases parented

/-- A skill after a rewrite: moved to the target, as it was, or without a parent. -/
private theorem mem_rewritten {tags : List QuestionTag} {requirements : List JobRoleSkill}
    {moved : List SkillId} {last : List Write}
    (deleted : last = [] ∨ ∃ orphans, last = [.delete sourceId orphans]) {skill : SkillRow}
    (inside : skill ∈ (engine.view (tags.map .tag ++ requirements.map .requirement ++
      (moved.map fun id => .reparent id targetId) ++ last) store).skills) :
    ∃ old ∈ store.skills, skill.id = old.id ∧
      ((old.id ∈ moved ∧ skill.parentId = some targetId) ∨
        (old.id ∉ moved ∧ skill.parentId = old.parentId) ∨ skill.parentId = none) := by
  have reparented : ∀ row ∈ (engine.view (tags.map .tag ++ requirements.map .requirement ++
      (moved.map fun id => .reparent id targetId)) store).skills,
      ∃ old ∈ store.skills, row.id = old.id ∧
        ((old.id ∈ moved ∧ row.parentId = some targetId) ∨
          (old.id ∉ moved ∧ row.parentId = old.parentId)) := by
    intro row member
    rw [view_append, view_reparent] at member
    obtain ⟨old, known, rfl⟩ := List.mem_map.mp member
    rw [view_silent] at known
    refine ⟨old, known, ?_⟩
    split
    · rename_i mine
      exact ⟨rfl, .inl ⟨mine, rfl⟩⟩
    · rename_i other
      exact ⟨rfl, .inr ⟨other, rfl⟩⟩
  rw [view_append] at inside
  cases deleted with
  | inl nothing =>
      subst nothing
      obtain ⟨old, known, same, moved⟩ := reparented skill inside
      exact ⟨old, known, same, moved.imp_right .inl⟩
  | inr deletion =>
      obtain ⟨orphans, rfl⟩ := deletion
      obtain ⟨row, member, rfl⟩ := List.mem_map.mp inside
      obtain ⟨old, known, same, moved⟩ := reparented row (List.mem_filter.mp member).1
      split
      · exact ⟨old, known, same, .inr (.inr rfl)⟩
      · exact ⟨old, known, same, moved.imp_right .inl⟩

/-- A rewrite to a target that may have children keeps the two levels. -/
private theorem twoLevels_of_rewrite (legal : Legal store) (two : TwoLevels store)
    (rewrites : Rewrites sourceId targetId wrote store)
    (checked : ∀ target ∈ store.skills, target.id = targetId →
      target.parentId ≠ some sourceId ∧
        (target.parentId = none ∨ store.children sourceId = [])) :
    TwoLevels (engine.view wrote store) := by
  obtain ⟨tags, requirements, moved, last, rfl, deleted, held⟩ := rewrites
  have movedChild : ∀ row ∈ store.skills, row.id ∈ moved → row.parentId = some sourceId := by
    intro row known mine
    obtain ⟨found, member, same, child⟩ := held row.id mine
    cases List.inj_on_of_nodup_map legal.skillIds known member same.symm
    exact child
  intro skill inside parented child member under
  obtain ⟨old, known, sameId, how⟩ := mem_rewritten deleted inside
  obtain ⟨below, alsoKnown, _, whence⟩ := mem_rewritten deleted member
  cases whence with
  | inl adopted =>
      -- the child was moved: its parent is the target, which has no parent of its own
      have target : old.id = targetId := by
        rw [← sameId]
        exact Option.some.inj (under.symm.trans adopted.2)
      obtain ⟨elsewhere, top⟩ := checked old known target
      have listed : below ∈ store.children sourceId :=
        List.mem_filter.mpr ⟨alsoKnown, beq_iff_eq.mpr (movedChild below alsoKnown adopted.1)⟩
      have topmost : old.parentId = none := by
        cases top with
        | inl top => exact top
        | inr childless =>
            rw [childless] at listed
            cases listed
      obtain ⟨mine, _⟩ | ⟨_, same⟩ | none := how
      · exact elsewhere (movedChild old known mine)
      · rw [same, topmost] at parented
        cases parented
      · rw [none] at parented
        cases parented
  | inr settled =>
      cases settled with
      | inr orphan =>
          rw [orphan] at under
          cases under
      | inl same =>
          have before : below.parentId = some old.id := by
            rw [← same.2, under, sameId]
          have top : old.parentId.isSome ≠ true :=
            fun some => two old known some below alsoKnown before
          obtain ⟨mine, _⟩ | ⟨_, kept⟩ | none := how
          · rw [movedChild old known mine] at top
            exact top rfl
          · rw [kept] at parented
            exact top parented
          · rw [none] at parented
            cases parented

end Commits

/-! ### Every run -/

private theorem two_levels :
    Rules engine program (fun _ => True) (fun store => Legal store ∧ TwoLevels store)
      (fun _ _ => True) Settles CheckHolds where
  starts _ _ := program_sound _
  commits := by
    intro session a past store _ holds _ settled checked allowed
    obtain ⟨legal, two⟩ := holds
    have after : Legal (engine.view session.wrote store) := of_decide_eq_true allowed
    refine ⟨⟨after, ?_⟩, trivial⟩
    unfold Settles at settled
    unfold CheckHolds at checked
    split at settled
    · rename_i input id made
      rw [made] at checked
      rw [settled] at after ⊢
      exact twoLevels_of_new legal two after checked
    · rename_i sourceId targetId made
      rw [made] at checked
      exact twoLevels_of_rewrite legal two settled.2 checked

/-- In a run whose transactions commit while their checks still hold, the taxonomy is a forest of
two levels at every point. -/
theorem two_levels_kept {store : Store} (legal : Legal store) (two : TwoLevels store)
    (events : List Event)
    (each : ReadCommitted.State.Each engine program CheckHolds
      (ReadCommitted.State.idle store) events) :
    ∀ sofar, sofar <+: events → TwoLevels (reach store sofar).store ∧
      ∀ id, ¬Relation.TransGen (ParentOf (reach store sofar).store) id id := by
  intro sofar initial
  obtain ⟨rest, rfl⟩ := initial
  have running := (running_idle engine ⟨legal, two⟩ trivial).run two_levels sofar
    (fun _ => trivial) ((each_append sofar rest).mp each).1
  have now : TwoLevels (reach store sofar).store := running.holds.2
  exact ⟨now, not_own_ancestor now⟩

/-! ### A check that no longer holds -/

def backend : SkillRow := ⟨js "b", false, none, js "backend", js "Backend", none⟩

def databases : SkillRow := ⟨js "d", false, some backend.id, js "databases", js "Databases", none⟩

def storage : SkillRow := ⟨js "s", false, none, js "storage", js "Storage", none⟩

/-- A child, its parent, and a skill of its own. -/
def shallow : Store := ⟨[backend, databases, storage], [], [], []⟩

/-- A skill under the one that a merge has read. -/
def underStorage : Request :=
  .createSkill ⟨js "indexes", js "Indexes", none, some storage.id⟩ (js "i")

/-- The new skill moves to the target, which has no parent. -/
theorem two_levels_kept_example :
    let events := [.start 0 (.mergeSkills storage.id backend.id), .start 1 underStorage] ++
      ([0, 0, 1, 1, 1, 0, 0, 0, 0, 0].map .advance)
    (reach shallow events).answered.length = 2 ∧ TwoLevels (reach shallow events).store := by
  intro events
  refine ⟨by decide +kernel, ?_⟩
  exact (two_levels_kept (by decide) (by decide) events (by decide +kernel) events
    (List.prefix_refl _)).1

/-- A merge that read its source without children re-parents one it was given since, and one whose
target was moved below its source makes the target its own parent. -/
theorem forest_broken :
    (¬ ∀ (store : Store) (events : List Event), Legal store → TwoLevels store →
      TwoLevels (reach store events).store) ∧
    ¬ ∀ (store : Store) (events : List Event) (id : SkillId), Legal store → TwoLevels store →
      ¬Relation.TransGen (ParentOf (reach store events).store) id id := by
  constructor
  · intro always
    have two := always shallow
      ([.start 0 (.mergeSkills storage.id databases.id), .start 1 underStorage] ++
        ([0, 0, 1, 1, 1, 0, 0, 0, 0, 0].map .advance)) (by decide) (by decide)
    revert two
    decide +kernel
  · intro always
    let events : List Event :=
      [.start 0 (.mergeSkills storage.id databases.id),
        .start 1 (.mergeSkills backend.id storage.id)] ++
        ([0, 0, 1, 1, 1, 1, 1, 1, 1, 0, 0, 0, 0, 0].map .advance)
    apply always shallow events databases.id (by decide) (by decide)
    apply Relation.TransGen.single
    have left : { databases with parentId := some databases.id } ∈
        (reach shallow events).store.skills := by decide +kernel
    exact ⟨_, left, rfl, rfl⟩

end Assaybank.Taxonomy
