import Mathlib.Data.List.Dedup

/-!
Owns maps that keep the order their keys were first set in: lists of entries, read by
`List.lookup` and written by `setEntry`.

Contract: a key that is set is read back and no other changes (`lookup_setEntry`); no key is ever
held twice (`nodup_setEntry`).
-/

namespace Assaybank.Library

variable {κ ν : Type} [DecidableEq κ]

/-- Sets a key: where it stands, or last. -/
def setEntry : List (κ × ν) → κ → ν → List (κ × ν)
  | [], key, value => [(key, value)]
  | entry :: rest, key, value =>
      if entry.1 = key then (key, value) :: rest else entry :: setEntry rest key value

/-- Deletes a key. -/
def removeEntry (entries : List (κ × ν)) (key : κ) : List (κ × ν) :=
  entries.filter fun entry => decide (entry.1 ≠ key)

/-- The members of `new Set(items)`, in the order they were first added. -/
def distinct (items : List κ) : List κ := items.reverse.dedup.reverse

/-- Sets entries one after the other. -/
def setEntries (start entries : List (κ × ν)) : List (κ × ν) :=
  entries.foldl (fun map entry => setEntry map entry.1 entry.2) start

theorem nodup_distinct (items : List κ) : (distinct items).Nodup :=
  List.nodup_reverse.mpr (List.nodup_dedup _)

theorem mem_distinct {items : List κ} {item : κ} : item ∈ distinct items ↔ item ∈ items := by
  rw [distinct, List.mem_reverse, List.mem_dedup, List.mem_reverse]

/-- Lists of the same values have as many distinct ones. -/
theorem length_distinct_congr {left right : List κ} (same : ∀ item, item ∈ left ↔ item ∈ right) :
    (distinct left).length = (distinct right).length := by
  apply List.Perm.length_eq
  rw [List.perm_ext_iff_of_nodup (nodup_distinct left) (nodup_distinct right)]
  intro item
  rw [mem_distinct, mem_distinct, same]

theorem length_distinct_of_nodup {items other : List κ} (once : other.Nodup)
    (same : ∀ item, item ∈ items ↔ item ∈ other) : (distinct items).length = other.length := by
  apply List.Perm.length_eq
  rw [List.perm_ext_iff_of_nodup (nodup_distinct items) once]
  intro item
  rw [mem_distinct, same]

theorem lookup_entry [BEq κ] [LawfulBEq κ] (entry : κ × ν) (rest : List (κ × ν)) (key : κ) :
    (entry :: rest).lookup key = if key = entry.1 then some entry.2 else rest.lookup key := by
  rw [List.lookup_cons]
  by_cases here : key = entry.1
  · simp [here]
  · rw [if_neg here, beq_eq_false_iff_ne.mpr here]

omit [DecidableEq κ] in
theorem lookup_absent [BEq κ] [LawfulBEq κ] {entries : List (κ × ν)} {key : κ}
    (absent : key ∉ entries.map Prod.fst) : entries.lookup key = none := by
  rw [List.lookup_eq_none_iff]
  intro entry inside
  rw [bne_iff_ne]
  intro same
  exact absent (List.mem_map.mpr ⟨entry, inside, same.symm⟩)

omit [DecidableEq κ] in
theorem mem_of_lookup [BEq κ] [LawfulBEq κ] {entries : List (κ × ν)} {key : κ} {value : ν}
    (found : entries.lookup key = some value) : (key, value) ∈ entries := by
  obtain ⟨before, after, same, _⟩ := List.lookup_eq_some_iff.mp found
  rw [same]
  exact List.mem_append_right _ List.mem_cons_self

/-- Where no key is held twice, an entry is the one its key reads. -/
theorem lookup_of_mem [BEq κ] [LawfulBEq κ] {entries : List (κ × ν)} {key : κ} {value : ν}
    (distinct : (entries.map Prod.fst).Nodup) (inside : (key, value) ∈ entries) :
    entries.lookup key = some value := by
  induction entries with
  | nil => cases inside
  | cons entry rest inductionHypothesis =>
      rw [List.map_cons, List.nodup_cons] at distinct
      rw [lookup_entry]
      cases List.mem_cons.mp inside with
      | inl here =>
          subst here
          exact if_pos rfl
      | inr later =>
          have elsewhere : key ≠ entry.1 := by
            rintro rfl
            exact distinct.1 (List.mem_map.mpr ⟨_, later, rfl⟩)
          rw [if_neg elsewhere]
          exact inductionHypothesis distinct.2 later

theorem lookup_setEntry [BEq κ] [LawfulBEq κ] (entries : List (κ × ν)) (key other : κ)
    (value : ν) :
    (setEntry entries key value).lookup other =
      if other = key then some value else entries.lookup other := by
  induction entries with
  | nil => rw [setEntry, lookup_entry]
  | cons entry rest inductionHypothesis =>
      unfold setEntry
      by_cases here : entry.1 = key
      · subst here
        rw [if_pos rfl, lookup_entry, lookup_entry]
        by_cases same : other = entry.1
        · rw [if_pos same, if_pos same]
        · rw [if_neg same, if_neg same, if_neg same]
      · rw [if_neg here, lookup_entry, lookup_entry, inductionHypothesis]
        by_cases first : other = entry.1
        · have elsewhere : other ≠ key := fun found => here (first ▸ found)
          rw [if_pos first, if_neg elsewhere, if_pos first]
        · rw [if_neg first, if_neg first]

/-- Deleting entries leaves those that are kept, where no key is held twice. -/
theorem lookup_filter [BEq κ] [LawfulBEq κ] {entries : List (κ × ν)}
    (distinct : (entries.map Prod.fst).Nodup) (keep : κ × ν → Bool) (key : κ) :
    (entries.filter keep).lookup key = (entries.lookup key).filter fun value => keep (key, value) := by
  induction entries with
  | nil => rfl
  | cons entry rest inductionHypothesis =>
      rw [List.map_cons, List.nodup_cons] at distinct
      have elsewhere := inductionHypothesis distinct.2
      by_cases here : key = entry.1
      · subst here
        rw [lookup_entry, if_pos rfl, Option.filter_some]
        by_cases kept : keep entry
        · rw [List.filter_cons_of_pos kept, lookup_entry, if_pos rfl, if_pos kept]
        · rw [List.filter_cons_of_neg kept, elsewhere, lookup_absent distinct.1, if_neg kept]
          rfl
      · rw [lookup_entry, if_neg here, ← elsewhere]
        by_cases kept : keep entry
        · rw [List.filter_cons_of_pos kept, lookup_entry, if_neg here]
        · rw [List.filter_cons_of_neg kept]

/-- Changing each entry under its key, or leaving it out, does so to what is found. -/
theorem lookup_filterMap [BEq κ] [LawfulBEq κ] {μ : Type} {entries : List (κ × ν)}
    (distinct : (entries.map Prod.fst).Nodup) (change : κ → ν → Option μ) (key : κ) :
    (entries.filterMap fun entry => (change entry.1 entry.2).map (Prod.mk entry.1)).lookup key =
      (entries.lookup key).bind (change key) := by
  induction entries with
  | nil => rfl
  | cons entry rest inductionHypothesis =>
      rw [List.map_cons, List.nodup_cons] at distinct
      have elsewhere := inductionHypothesis distinct.2
      by_cases here : key = entry.1
      · subst here
        rw [lookup_absent distinct.1] at elsewhere
        rw [lookup_entry, if_pos rfl, Option.bind_some, List.filterMap_cons]
        cases changed : change entry.1 entry.2 with
        | none => exact elsewhere
        | some value => exact (lookup_entry _ _ _).trans (if_pos rfl)
      · rw [lookup_entry, if_neg here, ← elsewhere, List.filterMap_cons]
        cases changed : change entry.1 entry.2 with
        | none => rfl
        | some value => exact (lookup_entry _ _ _).trans (if_neg here)

omit [DecidableEq κ] in
theorem nodup_filterMap {μ : Type} {entries : List (κ × ν)}
    (distinct : (entries.map Prod.fst).Nodup) (change : κ → ν → Option μ) :
    ((entries.filterMap fun entry =>
      (change entry.1 entry.2).map (Prod.mk entry.1)).map Prod.fst).Nodup := by
  induction entries with
  | nil => exact List.nodup_nil
  | cons entry rest inductionHypothesis =>
      rw [List.map_cons, List.nodup_cons] at distinct
      rw [List.filterMap_cons]
      cases changed : change entry.1 entry.2 with
      | none => exact inductionHypothesis distinct.2
      | some value =>
          refine List.nodup_cons.mpr ⟨?_, inductionHypothesis distinct.2⟩
          intro again
          obtain ⟨later, inside, same⟩ := List.mem_map.mp again
          obtain ⟨source, member, kept⟩ := List.mem_filterMap.mp inside
          obtain ⟨given, _, rfl⟩ := Option.map_eq_some_iff.mp kept
          exact distinct.1 (List.mem_map.mpr ⟨source, member, same⟩)

theorem lookup_removeEntry [BEq κ] [LawfulBEq κ] {entries : List (κ × ν)}
    (distinct : (entries.map Prod.fst).Nodup) (key other : κ) :
    (removeEntry entries key).lookup other = if other = key then none else entries.lookup other := by
  rw [removeEntry, lookup_filter distinct]
  by_cases same : other = key
  · rw [if_pos same, Option.filter_eq_none_iff]
    intro value _ kept
    exact of_decide_eq_true kept same
  · rw [if_neg same]
    cases entries.lookup other with
    | none => rfl
    | some value => rw [Option.filter_some, if_pos (decide_eq_true same)]

theorem nodup_removeEntry {entries : List (κ × ν)} (distinct : (entries.map Prod.fst).Nodup)
    (key : κ) : ((removeEntry entries key).map Prod.fst).Nodup :=
  distinct.sublist (List.filter_sublist.map Prod.fst)

theorem keys_setEntry (entries : List (κ × ν)) (key : κ) (value : ν) :
    (setEntry entries key value).map Prod.fst =
      if key ∈ entries.map Prod.fst then entries.map Prod.fst
      else entries.map Prod.fst ++ [key] := by
  induction entries with
  | nil => rfl
  | cons entry rest inductionHypothesis =>
      unfold setEntry
      by_cases here : entry.1 = key
      · subst here
        simp
      · have elsewhere : key ≠ entry.1 := fun found => here found.symm
        rw [if_neg here, List.map_cons, inductionHypothesis]
        by_cases later : key ∈ rest.map Prod.fst
        · have present : key ∈ (entry :: rest).map Prod.fst := List.mem_cons_of_mem _ later
          rw [if_pos later, if_pos present, List.map_cons]
        · have absent : key ∉ (entry :: rest).map Prod.fst := by
            rw [List.map_cons, List.mem_cons, not_or]
            exact ⟨elsewhere, later⟩
          rw [if_neg later, if_neg absent, List.map_cons, List.cons_append]

theorem mem_setEntry_self (entries : List (κ × ν)) (key : κ) (value : ν) :
    (key, value) ∈ setEntry entries key value := by
  induction entries with
  | nil => exact List.mem_singleton_self _
  | cons entry rest inductionHypothesis =>
      unfold setEntry
      by_cases here : entry.1 = key
      · rw [if_pos here]
        exact List.mem_cons_self
      · rw [if_neg here]
        exact List.mem_cons_of_mem _ inductionHypothesis

theorem nodup_setEntry {entries : List (κ × ν)} (distinct : (entries.map Prod.fst).Nodup)
    (key : κ) (value : ν) : ((setEntry entries key value).map Prod.fst).Nodup := by
  rw [keys_setEntry]
  by_cases present : key ∈ entries.map Prod.fst
  · rw [if_pos present]
    exact distinct
  · rw [if_neg present, List.nodup_append]
    refine ⟨distinct, List.nodup_singleton key, ?_⟩
    intro other inside last found
    rw [List.mem_singleton.mp found]
    rintro rfl
    exact present inside

theorem mem_setEntry {entries : List (κ × ν)} {key : κ} {value : ν} {entry : κ × ν}
    (inside : entry ∈ setEntry entries key value) : entry = (key, value) ∨ entry ∈ entries := by
  induction entries with
  | nil => exact .inl (List.mem_singleton.mp inside)
  | cons first rest inductionHypothesis =>
      unfold setEntry at inside
      split at inside
      · rcases List.mem_cons.mp inside with same | later
        · exact .inl same
        · exact .inr (List.mem_cons_of_mem _ later)
      · rcases List.mem_cons.mp inside with rfl | later
        · exact .inr List.mem_cons_self
        · exact (inductionHypothesis later).imp_right (List.mem_cons_of_mem _)

theorem mem_setEntries {start entries : List (κ × ν)} {entry : κ × ν}
    (inside : entry ∈ setEntries start entries) : entry ∈ start ∨ entry ∈ entries := by
  induction entries generalizing start with
  | nil => exact .inl inside
  | cons first rest inductionHypothesis =>
      rcases inductionHypothesis inside with before | later
      · rcases mem_setEntry before with rfl | origin
        · exact .inr List.mem_cons_self
        · exact .inl origin
      · exact .inr (List.mem_cons_of_mem _ later)

theorem setEntry_of_absent {entries : List (κ × ν)} {key : κ}
    {value : ν} (absent : key ∉ entries.map Prod.fst) :
    setEntry entries key value = entries ++ [(key, value)] := by
  induction entries with
  | nil => rfl
  | cons entry rest inductionHypothesis =>
      rw [List.map_cons, List.mem_cons, not_or] at absent
      rw [setEntry, if_neg (Ne.symm absent.1), inductionHypothesis absent.2, List.cons_append]

/-- Entries of different keys are appended in their order. -/
theorem setEntries_of_nodup {start entries : List (κ × ν)}
    (distinct : ((start ++ entries).map Prod.fst).Nodup) :
    setEntries start entries = start ++ entries := by
  induction entries generalizing start with
  | nil => exact (List.append_nil start).symm
  | cons entry rest inductionHypothesis =>
      have absent : entry.1 ∉ start.map Prod.fst := by
        intro present
        rw [List.map_append, List.nodup_append] at distinct
        exact distinct.2.2 entry.1 present entry.1 (List.mem_map_of_mem List.mem_cons_self) rfl
      have step : setEntries start (entry :: rest) =
          setEntries (setEntry start entry.1 entry.2) rest := rfl
      rw [step, setEntry_of_absent absent, inductionHypothesis, List.append_assoc]
      · rfl
      · rw [List.append_assoc]
        exact distinct

/-- A key that is set is held. -/
theorem isSome_lookup_setEntries [BEq κ] [LawfulBEq κ]
    {start entries : List (κ × ν)} {key : κ}
    (present : key ∈ entries.map Prod.fst ∨ (start.lookup key).isSome = true) :
    ((setEntries start entries).lookup key).isSome = true := by
  induction entries generalizing start with
  | nil => exact present.resolve_left List.not_mem_nil
  | cons entry rest inductionHypothesis =>
      have step : setEntries start (entry :: rest) =
          setEntries (setEntry start entry.1 entry.2) rest := rfl
      rw [step]
      apply inductionHypothesis
      rw [lookup_setEntry]
      by_cases here : key = entry.1
      · rw [if_pos here]
        exact .inr rfl
      · rw [if_neg here]
        rw [List.map_cons, List.mem_cons] at present
        exact present.imp_left fun set => set.resolve_left here

end Assaybank.Library
