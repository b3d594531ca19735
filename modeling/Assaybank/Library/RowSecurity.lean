import Assaybank.Library.Basic
import Mathlib.Data.List.Basic

/-!
Owns row-level security over tables that form a forest: a table has a tenant column, or a tenant
column that may be null for rows shared by all, or is reached through its parent, which may be shared.

Contract: what a tenant sees of a store is what it sees of its own rows and the shared ones
(`view_kept`), and what a tenant's statement changes is its own, where it spares the rows that stand
under shared ones (`judge_owned`).

It does not own transactions, nor the constraints between tables beyond the policies.
-/

namespace Assaybank.Library.RowSecurity

/-- How a table's rows come by their tenant. -/
inductive Policy (Table : Type) where
  | own
  | shared
  | within (parent : Table) (shares : Bool)

/-- Some rows are seen by all. -/
def Policy.mayShare {Table : Type} : Policy Table → Bool
  | .own => false
  | .shared => true
  | .within _ shares => shares

/-- The policies of a schema: parents come first, and a table says whether its parent has shared
rows. A written row may also name a row of a second table. -/
structure Scheme (Table : Type) where
  policy : Table → Policy Table
  linked : Table → Option Table
  rank : Table → Nat
  descends : ∀ {table parent shares}, policy table = .within parent shares → rank parent < rank table
  unshared : ∀ {table parent}, policy table = .within parent false → (policy parent).mayShare = false
  sharing : ∀ {table parent}, policy table = .within parent true → policy parent = .shared

structure Row (Table Key Tenant Data : Type) where
  table : Table
  key : Key
  tenant : Option Tenant
  parent : Option Key
  link : Option Key
  data : Data

/-- One row written. An update and a deletion name a row by its table and key. -/
inductive Change (Table Key Tenant Data : Type) where
  | insert (row : Row Table Key Tenant Data)
  | update (row : Row Table Key Tenant Data)
  | delete (table : Table) (key : Key)

variable {Table Key Tenant Data : Type} [DecidableEq Table] [DecidableEq Key] [DecidableEq Tenant]

def Change.key : Change Table Key Tenant Data → Key
  | .insert row => row.key
  | .update row => row.key
  | .delete _ key => key

/-- The row that is there after the change. -/
def Change.row? : Change Table Key Tenant Data → Option (Row Table Key Tenant Data)
  | .insert row => some row
  | .update row => some row
  | .delete _ _ => none

/-- The keys of the rows that some changes insert. -/
def insertedKeys (changes : List (Change Table Key Tenant Data)) : List Key :=
  changes.filterMap fun change =>
    match change with
    | .insert row => some row.key
    | _ => none

def apply (store : List (Row Table Key Tenant Data)) :
    Change Table Key Tenant Data → List (Row Table Key Tenant Data)
  | .insert row => store ++ [row]
  | .update row =>
      store.map fun old => if old.table = row.table ∧ old.key = row.key then row else old
  | .delete table key => store.filter fun old => !(old.table = table && old.key = key)

def applyAll (store : List (Row Table Key Tenant Data))
    (changes : List (Change Table Key Tenant Data)) : List (Row Table Key Tenant Data) :=
  changes.foldl apply store

/-! ### Policies -/

/-- What the reading policy of a row's table says of it: its tenant is the one in force, it has none
where rows may be shared, or its parent is seen. `height` bounds the parents above. -/
def visibleAt (scheme : Scheme Table) (store : List (Row Table Key Tenant Data))
    (tenant : Option Tenant) : Nat → Row Table Key Tenant Data → Bool
  | 0, _ => false
  | height + 1, row =>
      match scheme.policy row.table with
      | .own => tenant.any fun mine => row.tenant = some mine
      | .shared => row.tenant.isNone || tenant.any fun mine => row.tenant = some mine
      | .within parent _ => store.any fun above =>
          decide (above.table = parent ∧ row.parent = some above.key) &&
            visibleAt scheme store tenant height above

def visible (scheme : Scheme Table) (store : List (Row Table Key Tenant Data))
    (tenant : Option Tenant) (row : Row Table Key Tenant Data) : Bool :=
  visibleAt scheme store tenant (scheme.rank row.table + 1) row

/-- The rows a statement sees. -/
def view (scheme : Scheme Table) (store : List (Row Table Key Tenant Data))
    (tenant : Option Tenant) : List (Row Table Key Tenant Data) :=
  store.filter (visible scheme store tenant)

/-- What the policy of a row's table says of changing it: its tenant is this one, or its parent is
seen. -/
def alterable (scheme : Scheme Table) (seen : List (Row Table Key Tenant Data)) (tenant : Tenant)
    (row : Row Table Key Tenant Data) : Bool :=
  match scheme.policy row.table with
  | .own => row.tenant = some tenant
  | .shared => row.tenant = some tenant
  | .within parent _ => seen.any fun above =>
      decide (above.table = parent ∧ row.parent = some above.key)

/-- What the writing policy of a row's table says of it: its tenant is this one, or its parent is
seen, and is this tenant's where it could be shared, and so is the row it names beside. -/
def writable (scheme : Scheme Table) (seen : List (Row Table Key Tenant Data)) (tenant : Tenant)
    (row : Row Table Key Tenant Data) : Bool :=
  (match scheme.policy row.table with
    | .own => row.tenant = some tenant
    | .shared => row.tenant = some tenant
    | .within parent shares => seen.any fun above =>
        decide (above.table = parent ∧ row.parent = some above.key) &&
          (!shares || above.tenant = some tenant)) &&
    match scheme.linked row.table with
    | none => true
    | some table => seen.any fun other => decide (other.table = table ∧ row.link = some other.key)

/-- A row of this table and key can be changed by the tenant. -/
def reaches (scheme : Scheme Table) (seen : List (Row Table Key Tenant Data)) (tenant : Tenant)
    (table : Table) (key : Key) : Bool :=
  seen.any fun target =>
    decide (target.table = table ∧ target.key = key) && alterable scheme seen tenant target

/-- A row that stands under a shared one. -/
def underShared (scheme : Scheme Table) (seen : List (Row Table Key Tenant Data))
    (row : Row Table Key Tenant Data) : Bool :=
  match scheme.policy row.table with
  | .within parent true => seen.any fun above =>
      decide (above.table = parent ∧ row.parent = some above.key ∧ above.tenant = none)
  | _ => false

/-- A change is of no row that stands under a shared one. -/
def spares (scheme : Scheme Table) (seen : List (Row Table Key Tenant Data)) :
    Change Table Key Tenant Data → Bool
  | .insert _ => true
  | .update row => seen.all fun target =>
      !(decide (target.table = row.table ∧ target.key = row.key) && underShared scheme seen target)
  | .delete table key => seen.all fun target =>
      !(decide (target.table = table ∧ target.key = key) && underShared scheme seen target)

/-- A row that the writing policy refuses. -/
inductive Violation where
  | newRow
deriving DecidableEq

/-- What becomes of one change of a statement: a row out of reach is passed over, and a row the
policy refuses fails the statement. -/
def judge (scheme : Scheme Table) (seen : List (Row Table Key Tenant Data)) (tenant : Tenant) :
    Change Table Key Tenant Data → Except Violation (Option (Change Table Key Tenant Data))
  | .insert row =>
      if writable scheme seen tenant row then .ok (some (.insert row)) else .error .newRow
  | .update row =>
      if reaches scheme seen tenant row.table row.key then
        if writable scheme seen tenant row then .ok (some (.update row)) else .error .newRow
      else .ok none
  | .delete table key =>
      if reaches scheme seen tenant table key then .ok (some (.delete table key)) else .ok none

/-- What becomes of a statement. -/
def judgeAll (scheme : Scheme Table) (seen : List (Row Table Key Tenant Data)) (tenant : Tenant) :
    List (Change Table Key Tenant Data) → Except Violation (List (Change Table Key Tenant Data))
  | [] => .ok []
  | change :: changes => do
      let found ← judge scheme seen tenant change
      let rest ← judgeAll scheme seen tenant changes
      .ok (found.toList ++ rest)

/-! ### Ownership -/

/-- Who a key was given to: a tenant, or nobody where the row is shared. -/
abbrev Issuer (Key Tenant : Type) := Key → Option Tenant

/-- A row agrees with who its key was given to. -/
def Owned (scheme : Scheme Table) (issuer : Issuer Key Tenant)
    (row : Row Table Key Tenant Data) : Prop :=
  match scheme.policy row.table with
  | .own => row.tenant = issuer row.key ∧ row.tenant ≠ none
  | .shared => row.tenant = issuer row.key
  | .within _ _ => ∃ parent, row.parent = some parent ∧ issuer parent = issuer row.key

/-- A key that is not another tenant's. -/
def mine (issuer : Issuer Key Tenant) (tenant : Tenant) (key : Key) : Bool :=
  decide (issuer key = none ∨ issuer key = some tenant)

/-- The rows of a tenant and the shared ones. -/
def kept (issuer : Issuer Key Tenant) (tenant : Tenant) (store : List (Row Table Key Tenant Data)) :
    List (Row Table Key Tenant Data) :=
  store.filter fun row => mine issuer tenant row.key

section Ownership

variable {scheme : Scheme Table} {issuer : Issuer Key Tenant} {tenant : Tenant}
  {store : List (Row Table Key Tenant Data)}

/-- A row that is seen, of a table without shared rows, is the tenant's. By induction on the parents
above it. -/
theorem issuer_of_visibleAt (owned : ∀ row ∈ store, Owned scheme issuer row) {height : Nat}
    {row : Row Table Key Tenant Data} (known : Owned scheme issuer row)
    (plain : (scheme.policy row.table).mayShare = false)
    (seen : visibleAt scheme store (some tenant) height row = true) :
    issuer row.key = some tenant := by
  induction height generalizing row with
  | zero => cases seen
  | succ height inductionHypothesis =>
      rw [visibleAt] at seen
      unfold Owned at known
      split at seen <;> rename_i policy
      · rw [policy] at known
        rw [← known.1]
        simpa using seen
      · rw [policy] at plain
        cases plain
      · rw [policy] at known plain
        cases plain
        obtain ⟨key, named, same⟩ := known
        obtain ⟨above, inside, met⟩ := List.any_eq_true.mp seen
        obtain ⟨isParent, later⟩ := Bool.and_eq_true_iff.mp met
        obtain ⟨ofTable, ofKey⟩ := of_decide_eq_true isParent
        rw [named] at ofKey
        cases ofKey
        rw [← same]
        refine inductionHypothesis (owned above inside) ?_ later
        rw [ofTable]
        exact scheme.unshared policy

/-- A row of a table with shared rows that is seen is the tenant's or shared. -/
private theorem issuer_of_shared {height : Nat} {row : Row Table Key Tenant Data}
    (known : Owned scheme issuer row) (shared : scheme.policy row.table = .shared)
    (seen : visibleAt scheme store (some tenant) height row = true) :
    row.tenant = issuer row.key ∧ (issuer row.key = none ∨ issuer row.key = some tenant) := by
  cases height with
  | zero => cases seen
  | succ height =>
      unfold Owned at known
      rw [shared] at known
      have same : row.tenant = issuer row.key := known
      rw [visibleAt, shared] at seen
      refine ⟨same, ?_⟩
      simpa [same] using seen

/-- A row that is seen is the tenant's or shared. -/
theorem mine_of_visibleAt (owned : ∀ row ∈ store, Owned scheme issuer row) {height : Nat}
    {row : Row Table Key Tenant Data} (known : Owned scheme issuer row)
    (seen : visibleAt scheme store (some tenant) height row = true) :
    mine issuer tenant row.key = true := by
  rw [mine, decide_eq_true_eq]
  cases policy : scheme.policy row.table with
  | own => exact .inr (issuer_of_visibleAt owned known (by rw [policy]; rfl) seen)
  | shared => exact (issuer_of_shared known policy seen).2
  | within parent shares =>
      cases shares with
      | false => exact .inr (issuer_of_visibleAt owned known (by rw [policy]; rfl) seen)
      | true =>
          cases height with
          | zero => cases seen
          | succ height =>
              unfold Owned at known
              rw [policy] at known
              obtain ⟨key, named, same⟩ := known
              rw [visibleAt, policy] at seen
              obtain ⟨above, inside, met⟩ := List.any_eq_true.mp seen
              obtain ⟨isParent, later⟩ := Bool.and_eq_true_iff.mp met
              obtain ⟨ofTable, ofKey⟩ := of_decide_eq_true isParent
              rw [named] at ofKey
              cases ofKey
              rw [← same]
              refine (issuer_of_shared (owned above inside) ?_ later).2
              rw [ofTable]
              exact scheme.sharing policy

/-- Whether a row is seen depends on the tenant's rows and the shared ones alone. -/
theorem visibleAt_kept (owned : ∀ row ∈ store, Owned scheme issuer row) (height : Nat)
    (row : Row Table Key Tenant Data) :
    visibleAt scheme (kept issuer tenant store) (some tenant) height row =
      visibleAt scheme store (some tenant) height row := by
  induction height generalizing row with
  | zero => rfl
  | succ height inductionHypothesis =>
      rw [visibleAt, visibleAt]
      split
      · rfl
      · rfl
      · rw [Bool.eq_iff_iff, List.any_eq_true, List.any_eq_true]
        constructor
        · rintro ⟨above, inside, met⟩
          rw [inductionHypothesis] at met
          exact ⟨above, (List.mem_filter.mp inside).1, met⟩
        · rintro ⟨above, inside, met⟩
          have later := (Bool.and_eq_true_iff.mp met).2
          refine ⟨above, List.mem_filter.mpr ⟨inside, ?_⟩, ?_⟩
          · exact mine_of_visibleAt owned (owned above inside) later
          · rw [inductionHypothesis]
            exact met

/-- What a tenant sees of a store is what it sees of its own rows and the shared ones. -/
theorem view_kept (owned : ∀ row ∈ store, Owned scheme issuer row) :
    view scheme (kept issuer tenant store) (some tenant) = view scheme store (some tenant) := by
  have same : visible scheme (kept issuer tenant store) (some tenant) =
      visible scheme store (some tenant) := funext fun row => visibleAt_kept owned _ row
  rw [view, view, same, kept, List.filter_filter]
  refine List.filter_congr fun row inside => ?_
  rw [Bool.eq_iff_iff, Bool.and_eq_true_iff]
  exact ⟨And.left, fun seen => ⟨seen, mine_of_visibleAt owned (owned row inside) seen⟩⟩

/-! ### Changes -/

/-- A change by a tenant: to a key of its own, leaving a row of its own. -/
def ChangeOwned (scheme : Scheme Table) (issuer : Issuer Key Tenant) (tenant : Tenant)
    (change : Change Table Key Tenant Data) : Prop :=
  issuer change.key = some tenant ∧ ∀ row, change.row? = some row → Owned scheme issuer row

omit [DecidableEq Tenant] in
theorem owned_apply (owned : ∀ row ∈ store, Owned scheme issuer row)
    {change : Change Table Key Tenant Data} (own : ChangeOwned scheme issuer tenant change) :
    ∀ row ∈ apply store change, Owned scheme issuer row := by
  intro row inside
  cases change with
  | insert new =>
      rcases List.mem_append.mp inside with early | here
      · exact owned row early
      · rw [List.mem_singleton.mp here]
        exact own.2 new rfl
  | update new =>
      obtain ⟨old, early, rfl⟩ := List.mem_map.mp inside
      split
      · exact own.2 new rfl
      · exact owned old early
  | delete table key => exact owned row (List.mem_filter.mp inside).1

omit [DecidableEq Tenant] in
theorem owned_applyAll {changes : List (Change Table Key Tenant Data)}
    (owned : ∀ row ∈ store, Owned scheme issuer row)
    (own : ∀ change ∈ changes, ChangeOwned scheme issuer tenant change) :
    ∀ row ∈ applyAll store changes, Owned scheme issuer row := by
  induction changes generalizing store with
  | nil => exact owned
  | cons change changes inductionHypothesis =>
      obtain ⟨here, later⟩ := List.forall_mem_cons.mp own
      exact inductionHypothesis (owned_apply owned here) later

private theorem kept_update (row : Row Table Key Tenant Data) :
    kept issuer tenant (apply store (.update row)) =
      apply (kept issuer tenant store) (.update row) := by
  rw [apply, apply, kept, kept, List.filter_map]
  congr 1
  refine List.filter_congr fun old _ => ?_
  show mine issuer tenant (if _ then row else old).key = mine issuer tenant old.key
  split
  · rename_i replaced
    rw [replaced.2]
  · rfl

private theorem kept_delete (table : Table) (key : Key) :
    kept issuer tenant (apply store (.delete table key)) =
      apply (kept issuer tenant store) (.delete table key) := by
  rw [apply, apply, kept, kept, List.filter_filter, List.filter_filter]
  exact List.filter_congr fun row _ => Bool.and_comm _ _

/-- A change to a tenant's key is one to its part of the store. -/
theorem kept_apply {change : Change Table Key Tenant Data}
    (own : mine issuer tenant change.key = true) :
    kept issuer tenant (apply store change) = apply (kept issuer tenant store) change := by
  cases change with
  | insert row =>
      have here : kept issuer tenant [row] = [row] := List.filter_eq_self.mpr fun new inside => by
        rw [List.mem_singleton.mp inside]
        exact own
      rw [apply, apply, kept, List.filter_append]
      exact congrArg (kept issuer tenant store ++ ·) here
  | update row => exact kept_update row
  | delete table key => exact kept_delete table key

/-- A change to another tenant's key leaves a tenant's part as it is. -/
theorem kept_apply_other {change : Change Table Key Tenant Data}
    (other : mine issuer tenant change.key = false) :
    kept issuer tenant (apply store change) = kept issuer tenant store := by
  have apart {row : Row Table Key Tenant Data} (inside : row ∈ kept issuer tenant store) :
      row.key ≠ change.key := by
    intro same
    have ours := (List.mem_filter.mp inside).2
    rw [same, other] at ours
    cases ours
  cases change with
  | insert row =>
      have nothing : kept issuer tenant [row] = [] := by
        refine List.filter_eq_nil_iff.mpr fun new inside => ?_
        rw [List.mem_singleton.mp inside]
        exact Bool.not_eq_true _ ▸ other
      rw [apply, kept, List.filter_append]
      exact (congrArg (kept issuer tenant store ++ ·) nothing).trans (List.append_nil _)
  | update row =>
      rw [kept_update, apply]
      refine (List.map_congr_left fun old inside => ?_).trans (List.map_id _)
      exact if_neg fun replaced => apart inside replaced.2
  | delete table key =>
      rw [kept_delete, apply, List.filter_eq_self]
      intro row inside
      have away : row.key ≠ key := apart inside
      simp [away]

theorem kept_applyAll {changes : List (Change Table Key Tenant Data)}
    (own : ∀ change ∈ changes, ChangeOwned scheme issuer tenant change) :
    kept issuer tenant (applyAll store changes) = applyAll (kept issuer tenant store) changes := by
  induction changes generalizing store with
  | nil => rfl
  | cons change changes inductionHypothesis =>
      obtain ⟨here, later⟩ := List.forall_mem_cons.mp own
      have ours : mine issuer tenant change.key = true := decide_eq_true (.inr here.1)
      show kept issuer tenant (applyAll (apply store change) changes) = _
      rw [inductionHypothesis later, kept_apply ours]
      rfl

theorem kept_applyAll_other {other : Tenant} (apart : other ≠ tenant)
    {changes : List (Change Table Key Tenant Data)}
    (foreign : ∀ change ∈ changes, ChangeOwned scheme issuer other change) :
    kept issuer tenant (applyAll store changes) = kept issuer tenant store := by
  induction changes generalizing store with
  | nil => rfl
  | cons change changes inductionHypothesis =>
      obtain ⟨here, later⟩ := List.forall_mem_cons.mp foreign
      have theirs : mine issuer tenant change.key = false := by
        rw [mine, here.1]
        simpa using apart
      show kept issuer tenant (applyAll (apply store change) changes) = _
      rw [inductionHypothesis later, kept_apply_other theirs]

/-! ### Statements -/

/-- A row that is seen and can be changed is the tenant's, unless it stands under a shared one. -/
private theorem issuer_of_alterable (owned : ∀ row ∈ store, Owned scheme issuer row)
    {row : Row Table Key Tenant Data} (inside : row ∈ view scheme store (some tenant))
    (spared : underShared scheme (view scheme store (some tenant)) row = false)
    (able : alterable scheme (view scheme store (some tenant)) tenant row = true) :
    issuer row.key = some tenant := by
  obtain ⟨stored, seen⟩ := List.mem_filter.mp inside
  have known := owned row stored
  cases policy : scheme.policy row.table with
  | own => exact issuer_of_visibleAt owned known (by rw [policy]; rfl) seen
  | shared =>
      unfold Owned at known
      rw [policy] at known
      rw [alterable, policy] at able
      have same : row.tenant = issuer row.key := known
      rw [← same]
      simpa using able
  | within parent shares =>
      cases shares with
      | false => exact issuer_of_visibleAt owned known (by rw [policy]; rfl) seen
      | true =>
          unfold Owned at known
          rw [policy] at known
          obtain ⟨key, named, same⟩ := known
          rw [alterable, policy] at able
          obtain ⟨above, listed, isParent⟩ := List.any_eq_true.mp able
          obtain ⟨ofTable, ofKey⟩ := of_decide_eq_true isParent
          rw [underShared, policy, List.any_eq_false] at spared
          have owner : above.tenant ≠ none := fun nobody =>
            spared above listed (decide_eq_true ⟨ofTable, ofKey, nobody⟩)
          rw [named] at ofKey
          cases ofKey
          obtain ⟨kept, shown⟩ := List.mem_filter.mp listed
          have shared : scheme.policy above.table = .shared := by
            rw [ofTable]
            exact scheme.sharing policy
          obtain ⟨held, nobody | ours⟩ := issuer_of_shared (owned above kept) shared shown
          · exact absurd (held.trans nobody) owner
          · rw [← same]
            exact ours

/-- A row that the writing policy accepts, under a key of the tenant, is the tenant's. -/
private theorem owned_of_writable (owned : ∀ row ∈ store, Owned scheme issuer row)
    {row : Row Table Key Tenant Data} (issued : issuer row.key = some tenant)
    (able : writable scheme (view scheme store (some tenant)) tenant row = true) :
    Owned scheme issuer row := by
  unfold Owned
  rw [writable, Bool.and_eq_true_iff] at able
  obtain ⟨able, _⟩ := able
  split at able
  · have same : row.tenant = some tenant := by simpa using able
    exact ⟨same.trans issued.symm, by rw [same]; exact Option.some_ne_none tenant⟩
  · have same : row.tenant = some tenant := by simpa using able
    exact same.trans issued.symm
  · rename_i parent shares policy
    obtain ⟨above, inside, met⟩ := List.any_eq_true.mp able
    obtain ⟨isParent, belongs⟩ := Bool.and_eq_true_iff.mp met
    obtain ⟨ofTable, ofKey⟩ := of_decide_eq_true isParent
    obtain ⟨stored, seen⟩ := List.mem_filter.mp inside
    refine ⟨above.key, ofKey, ?_⟩
    rw [issued]
    cases shares with
    | false =>
        refine issuer_of_visibleAt owned (owned above stored) ?_ seen
        rw [ofTable]
        exact scheme.unshared policy
    | true =>
        have shared : scheme.policy above.table = .shared := by
          rw [ofTable]
          exact scheme.sharing policy
        have ours : above.tenant = some tenant := by simpa using belongs
        exact (issuer_of_shared (owned above stored) shared seen).1.symm.trans ours

/-- What is left of a change is the tenant's, where a new row has a key of the tenant and no row
under a shared one is changed. -/
theorem judge_owned (owned : ∀ row ∈ store, Owned scheme issuer row)
    {change found : Change Table Key Tenant Data}
    (issued : ∀ key ∈ insertedKeys [change], issuer key = some tenant)
    (spared : spares scheme (view scheme store (some tenant)) change = true)
    (judged : judge scheme (view scheme store (some tenant)) tenant change = .ok (some found)) :
    found = change ∧ ChangeOwned scheme issuer tenant change := by
  have reached {table : Table} {key : Key}
      (spared : (view scheme store (some tenant)).all (fun target =>
        !(decide (target.table = table ∧ target.key = key) &&
          underShared scheme (view scheme store (some tenant)) target)) = true)
      (reach : reaches scheme (view scheme store (some tenant)) tenant table key = true) :
      issuer key = some tenant := by
    obtain ⟨target, inside, met⟩ := List.any_eq_true.mp reach
    obtain ⟨isTarget, able⟩ := Bool.and_eq_true_iff.mp met
    have apart := List.all_eq_true.mp spared target inside
    rw [isTarget, Bool.true_and, Bool.not_eq_true'] at apart
    rw [← (of_decide_eq_true isTarget).2]
    exact issuer_of_alterable owned inside apart able
  cases change with
  | insert row =>
      have drawn : issuer row.key = some tenant := issued row.key (List.mem_singleton_self _)
      rw [judge] at judged
      split at judged
      · rename_i able
        cases judged
        refine ⟨rfl, drawn, fun new same => ?_⟩
        cases same
        exact owned_of_writable owned drawn able
      · cases judged
  | update row =>
      rw [judge] at judged
      split at judged
      · rename_i reach
        split at judged
        · rename_i able
          cases judged
          refine ⟨rfl, reached spared reach, fun new same => ?_⟩
          cases same
          exact owned_of_writable owned (reached spared reach) able
        · cases judged
      · cases judged
  | delete table key =>
      rw [judge] at judged
      split at judged
      · rename_i reach
        cases judged
        refine ⟨rfl, reached spared reach, fun new same => ?_⟩
        cases same
      · cases judged

theorem judgeAll_owned (owned : ∀ row ∈ store, Owned scheme issuer row)
    {changes found : List (Change Table Key Tenant Data)}
    (issued : ∀ key ∈ insertedKeys changes, issuer key = some tenant)
    (spared : ∀ change ∈ changes, spares scheme (view scheme store (some tenant)) change = true)
    (judged : judgeAll scheme (view scheme store (some tenant)) tenant changes = .ok found) :
    ∀ change ∈ found, ChangeOwned scheme issuer tenant change := by
  induction changes generalizing found with
  | nil =>
      cases judged
      intro change inside
      cases inside
  | cons change changes inductionHypothesis =>
      rw [judgeAll] at judged
      obtain ⟨first, here, onward⟩ := bind_eq_ok.mp judged
      obtain ⟨rest, later, same⟩ := bind_eq_ok.mp onward
      cases same
      have split : insertedKeys (change :: changes) =
          insertedKeys [change] ++ insertedKeys changes := by
        rw [insertedKeys, ← List.singleton_append, List.filterMap_append]
        rfl
      rw [split] at issued
      obtain ⟨drawn, others⟩ := List.forall_mem_append.mp issued
      obtain ⟨apart, onwards⟩ := List.forall_mem_cons.mp spared
      refine List.forall_mem_append.mpr ⟨?_, inductionHypothesis others onwards later⟩
      intro left inside
      obtain ⟨same, own⟩ := judge_owned owned drawn apart (here.trans
        (congrArg Except.ok (Option.mem_toList.mp inside)))
      rw [same]
      exact own

end Ownership

end Assaybank.Library.RowSecurity
