import Assaybank.Db.Cursor
import Assaybank.Library.RowSecurity
import Assaybank.Library.Unwinding
import Mathlib.Data.List.FinRange
import Mathlib.Logic.Function.Basic

/-!
Owns the tables with their row-level policies (`packages/db/migrations/0002_rls.sql`,
`0006_staff_identity.sql`, `0008_global_rows_read_only.sql`, `0010_bank_jobs.sql`), and the pooled
connections an organisation's transactions run on (`packages/db/src/client.ts`).

Contract: whatever transactions of other organisations run in between, and however connections are
reused, an organisation's statements are answered as if its transactions ran alone, and it is left
with what it would be left with alone, in a run that changes and deletes no grant of a shared role
(`withOrg_isolated`). Those grants are seen by all and the policy lets any organisation delete them.

It does not own the elevated role, the lookups made before an organisation is known, nor what
privileges and constraints refuse or cascade beyond the policies.
-/

namespace Assaybank.Db.Tenancy

open Assaybank.Runtime Assaybank.Db Assaybank.Library Assaybank.Library.RowSecurity

/-! ### Tables -/

/-- The tables that have a policy. -/
inductive TenantTable where
  | organizations
  | users
  | jobRoles
  | jobOpenings
  | questions
  | assessments
  | candidates
  | applications
  | invitations
  | attempts
  | submissions
  | interviewSessions
  | scorecardTemplates
  | auditLog
  | staffAccounts
  | staffVerifications
  | bankJobs
  | userRoles
  | skills
  | userRolePermissions
  | userRoleAssignments
  | jobRoleSkills
  | questionVersions
  | questionSkills
  | mcqOptions
  | codingSpecs
  | testCases
  | shortAnswerKeys
  | questionStats
  | assessmentSections
  | sectionQuestions
  | sectionRules
  | attemptQuestions
  | answers
  | submissionResults
  | sessionParticipants
  | sessionEvents
  | scorecardCriteria
  | scorecards
  | scorecardRatings
  | proctorEvents
  | proctorMedia
deriving DecidableEq

namespace TenantTable

/-- What the policies of a table compare: its `org_id` (`id` for an organisation itself), or the key
of the row above. -/
def policy : TenantTable → Policy TenantTable
  | organizations | users | jobRoles | jobOpenings | questions | assessments | candidates
  | applications | invitations | attempts | submissions | interviewSessions | scorecardTemplates
  | auditLog | staffAccounts | staffVerifications | bankJobs => .own
  | userRoles | skills => .shared
  | userRolePermissions => .within userRoles true
  | userRoleAssignments => .within users false
  | jobRoleSkills => .within jobRoles false
  | questionVersions => .within questions false
  | questionSkills => .within questions false
  | mcqOptions => .within questionVersions false
  | codingSpecs => .within questionVersions false
  | testCases => .within questionVersions false
  | shortAnswerKeys => .within questionVersions false
  | questionStats => .within questionVersions false
  | assessmentSections => .within assessments false
  | sectionQuestions => .within assessmentSections false
  | sectionRules => .within assessmentSections false
  | attemptQuestions => .within attempts false
  | answers => .within attemptQuestions false
  | submissionResults => .within submissions false
  | sessionParticipants => .within interviewSessions false
  | sessionEvents => .within interviewSessions false
  | scorecardCriteria => .within scorecardTemplates false
  | scorecards => .within scorecardTemplates false
  | scorecardRatings => .within scorecards false
  | proctorEvents => .within attempts false
  | proctorMedia => .within attempts false

/-- The second key a written row of a table names: both ends of a section's question are checked. -/
def linked : TenantTable → Option TenantTable
  | sectionQuestions => some questions
  | _ => none

/-- How many tables stand above one. -/
def rank : TenantTable → Nat
  | userRolePermissions | userRoleAssignments | jobRoleSkills | questionVersions | questionSkills
  | assessmentSections | attemptQuestions | submissionResults | sessionParticipants | sessionEvents
  | scorecardCriteria | scorecards | proctorEvents | proctorMedia => 1
  | mcqOptions | codingSpecs | testCases | shortAnswerKeys | questionStats | sectionQuestions
  | sectionRules | answers | scorecardRatings => 2
  | _ => 0

private theorem policy_descends {table parent : TenantTable} {shares : Bool}
    (above : policy table = .within parent shares) : rank parent < rank table := by
  cases table <;> cases above <;> decide

private theorem policy_unshared {table parent : TenantTable}
    (above : policy table = .within parent false) : (policy parent).mayShare = false := by
  cases table <;> cases above <;> rfl

private theorem policy_sharing {table parent : TenantTable}
    (above : policy table = .within parent true) : policy parent = .shared := by
  cases table <;> cases above
  rfl

def scheme : Scheme TenantTable :=
  ⟨policy, linked, rank, policy_descends, policy_unshared, policy_sharing⟩

end TenantTable

variable {poolMax : Nat} {Data : Type}

abbrev TenantRow (Data : Type) := Row TenantTable RowId RowId Data

abbrev TenantChange (Data : Type) := Change TenantTable RowId RowId Data

/-! ### Connections -/

/-- A transaction that runs: the organisation it set, and what it wrote so far. -/
structure OrgTransaction (Data : Type) where
  orgId : RowId
  log : List (TenantChange Data)

/-- A pooled connection: `app.current_org` as a session left it, and the transaction on it. -/
structure Connection (Data : Type) where
  session : Option RowId
  tx : Option (OrgTransaction Data)

/-- `app_current_org()`: what the transaction set for itself, else what the session has. -/
def appCurrentOrg (connection : Connection Data) : Option RowId :=
  (connection.tx.map OrgTransaction.orgId).or connection.session

/-- What is committed, the keys the database has drawn, and the pool. -/
structure DbState (poolMax : Nat) (Data : Type) where
  rows : List (TenantRow Data)
  drawn : List RowId
  connections : Fin poolMax → Connection Data

/-- What happens on a connection. A statement's changes may depend on all it sees. A session-scoped
setting is what a mistake would leave behind, outside of any transaction. -/
inductive DbEvent (poolMax : Nat) (Data : Type) where
  | withOrg (conn : Fin poolMax) (orgId : RowId)
  | statement (conn : Fin poolMax) (orgId : RowId) (keys : List RowId)
      (changes : List (TenantRow Data) → List (TenantChange Data))
  | commit (conn : Fin poolMax) (orgId : RowId)
  | rollback (conn : Fin poolMax) (orgId : RowId)
  | setSession (conn : Fin poolMax) (value : Option RowId)

/-- What the caller is told. A refused row fails the transaction. -/
inductive DbAnswer (Data : Type) where
  | opened
  | orgContextLeak
  | rows (seen : List (TenantRow Data))
  | violation
  | ended

/-- Whose event it is. -/
def DbEvent.orgId : DbEvent poolMax Data → Option RowId
  | .withOrg _ orgId => some orgId
  | .statement _ orgId _ _ => some orgId
  | .commit _ orgId => some orgId
  | .rollback _ orgId => some orgId
  | .setSession _ _ => none

/-- The keys drawn for an event. -/
def DbEvent.keys : DbEvent poolMax Data → List RowId
  | .statement _ _ keys _ => keys
  | _ => []

/-- The keys are new, and each new row has one of its own. -/
def fresh (drawn keys : List RowId) (changes : List (TenantChange Data)) : Bool :=
  keys.all (fun key => !drawn.contains key) &&
    (insertedKeys changes).all (fun key => keys.contains key) && decide (insertedKeys changes).Nodup

/-- A change waits for a row that another open transaction has changed. -/
def waits (connections : Fin poolMax → Connection Data) (conn : Fin poolMax)
    (changes : List (TenantChange Data)) : Bool :=
  (List.finRange poolMax).any fun other => other != conn &&
    (connections other).tx.any fun tx => tx.log.any fun held =>
      changes.any fun change => held.key = change.key

def setTx (state : DbState poolMax Data) (conn : Fin poolMax)
    (tx : Option (OrgTransaction Data)) : Fin poolMax → Connection Data :=
  Function.update state.connections conn ⟨(state.connections conn).session, tx⟩

/-- What a statement of a transaction sees: what is committed, and what it wrote itself. -/
def seenBy (state : DbState poolMax Data) (conn : Fin poolMax) (tx : OrgTransaction Data) :
    List (TenantRow Data) :=
  view TenantTable.scheme (applyAll state.rows tx.log) (appCurrentOrg (state.connections conn))

/-- One event, where it can be taken. -/
def step (state : DbState poolMax Data) :
    DbEvent poolMax Data → Option (DbState poolMax Data × DbAnswer Data)
  | .withOrg conn orgId =>
      match (state.connections conn).tx with
      | some _ => none
      | none =>
          if (appCurrentOrg (state.connections conn)).isSome then some (state, .orgContextLeak)
          else some ({ state with connections := setTx state conn (some ⟨orgId, []⟩) }, .opened)
  | .statement conn orgId keys changes =>
      match (state.connections conn).tx with
      | none => none
      | some tx =>
          let seen := seenBy state conn tx
          if tx.orgId = orgId ∧ fresh state.drawn keys (changes seen) = true then
            match judgeAll TenantTable.scheme seen orgId (changes seen) with
            | .error _ =>
                some (⟨state.rows, keys ++ state.drawn, setTx state conn none⟩, .violation)
            | .ok found =>
                if waits state.connections conn found then none
                else
                  some (⟨state.rows, keys ++ state.drawn,
                    setTx state conn (some ⟨orgId, tx.log ++ found⟩)⟩, .rows seen)
          else none
  | .commit conn orgId =>
      match (state.connections conn).tx with
      | none => none
      | some tx =>
          if tx.orgId = orgId then
            some (⟨applyAll state.rows tx.log, state.drawn, setTx state conn none⟩, .ended)
          else none
  | .rollback conn orgId =>
      match (state.connections conn).tx with
      | none => none
      | some tx =>
          if tx.orgId = orgId then
            some ({ state with connections := setTx state conn none }, .ended)
          else none
  | .setSession conn value =>
      match (state.connections conn).tx with
      | some _ => none
      | none =>
          some ({ state with
            connections := Function.update state.connections conn ⟨value, none⟩ }, .ended)

/-- The event is no statement that changes or deletes a grant of a shared role. -/
def sparesGrants : DbEvent poolMax Data → DbAnswer Data → Bool
  | .statement _ _ _ changes, .rows seen => (changes seen).all (spares TenantTable.scheme seen)
  | _, _ => true

/-- An event of an organisation, or of the connections themselves. -/
def concerns (orgId : RowId) (event : DbEvent poolMax Data) : Bool :=
  decide (event.orgId = none ∨ event.orgId = some orgId)

/-! ### What a step keeps -/

section Steps

variable {issuer : Issuer RowId RowId} {state alone after : DbState poolMax Data}
  {event : DbEvent poolMax Data} {answer : DbAnswer Data}

theorem appCurrentOrg_tx {connection : Connection Data} {tx : OrgTransaction Data}
    (running : connection.tx = some tx) : appCurrentOrg connection = some tx.orgId := by
  rw [appCurrentOrg, running]
  rfl

/-- A statement that is taken: its transaction is open, its keys are new, and it fails, or leaves
its changes in the log. -/
theorem step_statement {conn : Fin poolMax} {orgId : RowId} {keys : List RowId}
    {changes : List (TenantRow Data) → List (TenantChange Data)}
    (stepped : step state (.statement conn orgId keys changes) = some (after, answer)) :
    ∃ log, (state.connections conn).tx = some ⟨orgId, log⟩ ∧
      fresh state.drawn keys (changes (seenBy state conn ⟨orgId, log⟩)) = true ∧
      ((∃ violation, judgeAll TenantTable.scheme (seenBy state conn ⟨orgId, log⟩) orgId
            (changes (seenBy state conn ⟨orgId, log⟩)) = .error violation ∧
          after = ⟨state.rows, keys ++ state.drawn, setTx state conn none⟩ ∧
          answer = .violation) ∨
        ∃ found, judgeAll TenantTable.scheme (seenBy state conn ⟨orgId, log⟩) orgId
            (changes (seenBy state conn ⟨orgId, log⟩)) = .ok found ∧
          waits state.connections conn found = false ∧
          after = ⟨state.rows, keys ++ state.drawn,
            setTx state conn (some ⟨orgId, log ++ found⟩)⟩ ∧
          answer = .rows (seenBy state conn ⟨orgId, log⟩)) := by
  rw [step] at stepped
  split at stepped
  · cases stepped
  rename_i tx running
  simp only at stepped
  split at stepped
  swap
  · cases stepped
  rename_i able
  obtain ⟨mine, new⟩ := able
  obtain ⟨owner, log⟩ := tx
  cases mine
  refine ⟨log, running, new, ?_⟩
  split at stepped
  · rename_i violation judged
    cases stepped
    exact .inl ⟨violation, judged, rfl, rfl⟩
  · rename_i found judged
    split at stepped
    · cases stepped
    · rename_i free
      cases stepped
      exact .inr ⟨found, judged, Bool.not_eq_true _ ▸ free, rfl, rfl⟩

/-- A transaction that opens, unless the session left an organisation behind. -/
theorem step_withOrg {conn : Fin poolMax} {orgId : RowId}
    (stepped : step state (.withOrg conn orgId) = some (after, answer)) :
    (state.connections conn).tx = none ∧
      (((state.connections conn).session.isSome = true ∧ after = state ∧
          answer = .orgContextLeak) ∨
        (state.connections conn).session.isSome = false ∧
          after = { state with connections := setTx state conn (some ⟨orgId, []⟩) } ∧
          answer = .opened) := by
  rw [step] at stepped
  split at stepped
  · cases stepped
  rename_i idle
  rw [appCurrentOrg, idle] at stepped
  refine ⟨idle, ?_⟩
  cases left : (state.connections conn).session.isSome with
  | true =>
      rw [Option.map_none, Option.none_or, if_pos left] at stepped
      cases stepped
      exact .inl ⟨rfl, rfl, rfl⟩
  | false =>
      rw [Option.map_none, Option.none_or, if_neg (by rw [left]; exact Bool.false_ne_true)]
        at stepped
      cases stepped
      exact .inr ⟨rfl, rfl, rfl⟩

theorem step_commit {conn : Fin poolMax} {orgId : RowId}
    (stepped : step state (.commit conn orgId) = some (after, answer)) :
    ∃ log, (state.connections conn).tx = some ⟨orgId, log⟩ ∧
      after = ⟨applyAll state.rows log, state.drawn, setTx state conn none⟩ ∧ answer = .ended := by
  rw [step] at stepped
  split at stepped
  · cases stepped
  rename_i tx running
  split at stepped
  · rename_i mine
    obtain ⟨owner, log⟩ := tx
    cases mine
    cases stepped
    exact ⟨log, running, rfl, rfl⟩
  · cases stepped

theorem step_rollback {conn : Fin poolMax} {orgId : RowId}
    (stepped : step state (.rollback conn orgId) = some (after, answer)) :
    ∃ log, (state.connections conn).tx = some ⟨orgId, log⟩ ∧
      after = { state with connections := setTx state conn none } ∧ answer = .ended := by
  rw [step] at stepped
  split at stepped
  · cases stepped
  rename_i tx running
  split at stepped
  · rename_i mine
    obtain ⟨owner, log⟩ := tx
    cases mine
    cases stepped
    exact ⟨log, running, rfl, rfl⟩
  · cases stepped

theorem step_setSession {conn : Fin poolMax} {value : Option RowId}
    (stepped : step state (.setSession conn value) = some (after, answer)) :
    (state.connections conn).tx = none ∧
      after = { state with connections := Function.update state.connections conn ⟨value, none⟩ } ∧
      answer = .ended := by
  rw [step] at stepped
  split at stepped
  · cases stepped
  rename_i idle
  cases stepped
  exact ⟨idle, rfl, rfl⟩

/-! ### Ownership -/

/-- The keys an event draws are its organisation's. -/
def Issues (issuer : Issuer RowId RowId) (event : DbEvent poolMax Data) : Prop :=
  ∀ orgId, event.orgId = some orgId → ∀ key ∈ event.keys, issuer key = some orgId

/-- Every row is its owner's, and every open transaction has written its own rows alone. -/
structure Sound (issuer : Issuer RowId RowId) (state : DbState poolMax Data) : Prop where
  rows : ∀ row ∈ state.rows, Owned TenantTable.scheme issuer row
  logs : ∀ conn tx, (state.connections conn).tx = some tx →
    ∀ change ∈ tx.log, ChangeOwned TenantTable.scheme issuer tx.orgId change

private theorem logs_update {connections : Fin poolMax → Connection Data}
    (logs : ∀ conn tx, (connections conn).tx = some tx →
      ∀ change ∈ tx.log, ChangeOwned TenantTable.scheme issuer tx.orgId change)
    (conn : Fin poolMax) {connection : Connection Data}
    (here : ∀ tx, connection.tx = some tx →
      ∀ change ∈ tx.log, ChangeOwned TenantTable.scheme issuer tx.orgId change) :
    ∀ other tx, (Function.update connections conn connection other).tx = some tx →
      ∀ change ∈ tx.log, ChangeOwned TenantTable.scheme issuer tx.orgId change := by
  intro other tx running
  by_cases same : other = conn
  · subst same
    rw [Function.update_self] at running
    exact here tx running
  · rw [Function.update_of_ne same] at running
    exact logs other tx running

private theorem inserted_of_fresh {drawn keys : List RowId} {changes : List (TenantChange Data)}
    (new : fresh drawn keys changes = true) : ∀ key ∈ insertedKeys changes, key ∈ keys := by
  rw [fresh, Bool.and_eq_true_iff, Bool.and_eq_true_iff] at new
  intro key inside
  exact List.contains_iff_mem.mp (List.all_eq_true.mp new.1.2 key inside)

/-- One step keeps every row with its owner. -/
theorem sound_step (issues : Issues issuer event) (spared : sparesGrants event answer = true)
    (sound : Sound issuer state) (stepped : step state event = some (after, answer)) :
    Sound issuer after := by
  have closed (conn : Fin poolMax) : ∀ other tx, (setTx state conn none other).tx = some tx →
      ∀ change ∈ tx.log, ChangeOwned TenantTable.scheme issuer tx.orgId change :=
    logs_update sound.logs conn fun tx running => by cases running
  cases event with
  | withOrg conn orgId =>
      obtain ⟨_, ⟨_, rfl, _⟩ | ⟨_, rfl, _⟩⟩ := step_withOrg stepped
      · exact sound
      · refine ⟨sound.rows, logs_update sound.logs conn fun tx running => ?_⟩
        cases running
        intro change inside
        cases inside
  | statement conn orgId keys changes =>
      obtain ⟨log, running, new, ⟨_, _, rfl, _⟩ | ⟨found, judged, _, rfl, rfl⟩⟩ :=
        step_statement stepped
      · exact ⟨sound.rows, closed conn⟩
      · have own := sound.logs conn _ running
        refine ⟨sound.rows, logs_update sound.logs conn fun tx opened => ?_⟩
        cases opened
        refine List.forall_mem_append.mpr ⟨own, ?_⟩
        rw [sparesGrants, List.all_eq_true] at spared
        rw [seenBy, appCurrentOrg_tx running] at judged new spared
        exact judgeAll_owned (owned_applyAll sound.rows own)
          (fun key inside => issues orgId rfl key (inserted_of_fresh new key inside)) spared judged
  | commit conn orgId =>
      obtain ⟨log, running, rfl, _⟩ := step_commit stepped
      exact ⟨owned_applyAll sound.rows (sound.logs conn _ running), closed conn⟩
  | rollback conn orgId =>
      obtain ⟨log, running, rfl, _⟩ := step_rollback stepped
      exact ⟨sound.rows, closed conn⟩
  | setSession conn value =>
      obtain ⟨_, rfl, _⟩ := step_setSession stepped
      exact ⟨sound.rows, logs_update sound.logs conn fun tx running => by cases running⟩

/-! ### The run alone -/

/-- A connection, without the transactions of other organisations. -/
def ownConnection (orgId : RowId) (connection : Connection Data) : Connection Data :=
  ⟨connection.session, connection.tx.filter fun tx => tx.orgId = orgId⟩

/-- A state, and the one reached without the transactions of other organisations. -/
structure Alike (issuer : Issuer RowId RowId) (orgId : RowId)
    (state alone : DbState poolMax Data) : Prop where
  sound : Sound issuer state
  soundAlone : Sound issuer alone
  same : kept issuer orgId state.rows = kept issuer orgId alone.rows
  drawn : ∀ key ∈ alone.drawn, key ∈ state.drawn
  connections : ∀ conn, alone.connections conn = ownConnection orgId (state.connections conn)

section Alone

variable {orgId : RowId}

private theorem filter_own {tx : OrgTransaction Data} (mine : tx.orgId = orgId) :
    (some tx).filter (fun tx => decide (tx.orgId = orgId)) = some tx :=
  Option.filter_some_pos (decide_eq_true mine)

private theorem filter_other {tx : OrgTransaction Data} (apart : tx.orgId ≠ orgId) :
    (some tx).filter (fun tx => decide (tx.orgId = orgId)) = none :=
  Option.filter_some_neg (decide_eq_false apart)

private theorem ownConnection_some (session : Option RowId) (log : List (TenantChange Data)) :
    ownConnection orgId ⟨session, some ⟨orgId, log⟩⟩ = ⟨session, some ⟨orgId, log⟩⟩ :=
  congrArg (Connection.mk session) (filter_own rfl)

private theorem ownConnection_other {other : RowId} (apart : other ≠ orgId)
    (session : Option RowId) (log : List (TenantChange Data)) :
    ownConnection orgId ⟨session, some ⟨other, log⟩⟩ = ⟨session, none⟩ :=
  congrArg (Connection.mk session) (filter_other apart)

private theorem own_update {connections own : Fin poolMax → Connection Data}
    (same : ∀ conn, own conn = ownConnection orgId (connections conn)) (conn : Fin poolMax)
    (connection : Connection Data) :
    ∀ other, Function.update own conn (ownConnection orgId connection) other =
      ownConnection orgId (Function.update connections conn connection other) := by
  intro other
  by_cases here : other = conn
  · subst here
    rw [Function.update_self, Function.update_self]
  · rw [Function.update_of_ne here, Function.update_of_ne here, same]

private theorem own_passed {connections own : Fin poolMax → Connection Data}
    (same : ∀ conn, own conn = ownConnection orgId (connections conn)) (conn : Fin poolMax)
    {connection : Connection Data}
    (silent : ownConnection orgId connection = ownConnection orgId (connections conn)) :
    ∀ other, own other =
      ownConnection orgId (Function.update connections conn connection other) := by
  intro other
  by_cases here : other = conn
  · subst here
    rw [Function.update_self, silent, same]
  · rw [Function.update_of_ne here, same]

private theorem waits_own {connections own : Fin poolMax → Connection Data}
    (same : ∀ conn, own conn = ownConnection orgId (connections conn)) {conn : Fin poolMax}
    {changes : List (TenantChange Data)} (free : waits connections conn changes = false) :
    waits own conn changes = false := by
  rw [waits, List.any_eq_false] at free ⊢
  intro other inside held
  apply free other inside
  obtain ⟨apart, busy⟩ := Bool.and_eq_true_iff.mp held
  refine Bool.and_eq_true_iff.mpr ⟨apart, ?_⟩
  rw [same other, ownConnection] at busy
  cases running : (connections other).tx with
  | none =>
      rw [running] at busy
      cases busy
  | some tx =>
      rw [running] at busy
      by_cases mine : tx.orgId = orgId
      · rwa [filter_own mine] at busy
      · rw [filter_other mine] at busy
        cases busy

private theorem fresh_own {drawn own keys : List RowId} {changes : List (TenantChange Data)}
    (fewer : ∀ key ∈ own, key ∈ drawn) (new : fresh drawn keys changes = true) :
    fresh own keys changes = true := by
  rw [fresh, Bool.and_eq_true_iff, Bool.and_eq_true_iff] at new ⊢
  refine ⟨⟨List.all_eq_true.mpr fun key inside => ?_, new.1.2⟩, new.2⟩
  have unknown := List.all_eq_true.mp new.1.1 key inside
  simp only [Bool.not_eq_true', List.contains_eq_mem, decide_eq_false_iff_not] at unknown ⊢
  exact fun known => unknown (fewer key known)

private theorem tx_alike (alike : Alike issuer orgId state alone) {conn : Fin poolMax}
    {log : List (TenantChange Data)}
    (running : (state.connections conn).tx = some ⟨orgId, log⟩) :
    (alone.connections conn).tx = some ⟨orgId, log⟩ := by
  rw [alike.connections conn, ownConnection, running]
  exact filter_own rfl

private theorem idle_alike (alike : Alike issuer orgId state alone) {conn : Fin poolMax}
    (idle : (state.connections conn).tx = none) : (alone.connections conn).tx = none := by
  rw [alike.connections conn, ownConnection, idle]
  rfl

private theorem session_alike (alike : Alike issuer orgId state alone) (conn : Fin poolMax) :
    (alone.connections conn).session = (state.connections conn).session := by
  rw [alike.connections conn]
  rfl

/-- A statement of the organisation sees the same in both. -/
theorem seenBy_alike (alike : Alike issuer orgId state alone) {conn : Fin poolMax}
    {log : List (TenantChange Data)}
    (running : (state.connections conn).tx = some ⟨orgId, log⟩) :
    seenBy alone conn ⟨orgId, log⟩ = seenBy state conn ⟨orgId, log⟩ := by
  have own := alike.sound.logs conn _ running
  rw [seenBy, seenBy, appCurrentOrg_tx running, appCurrentOrg_tx (tx_alike alike running)]
  show view _ (applyAll alone.rows log) (some orgId) = view _ (applyAll state.rows log) (some orgId)
  calc view TenantTable.scheme (applyAll alone.rows log) (some orgId)
      = view TenantTable.scheme (kept issuer orgId (applyAll alone.rows log)) (some orgId) :=
        (view_kept (owned_applyAll alike.soundAlone.rows own)).symm
    _ = view TenantTable.scheme (kept issuer orgId (applyAll state.rows log)) (some orgId) := by
        rw [kept_applyAll own, kept_applyAll own, alike.same]
    _ = view TenantTable.scheme (applyAll state.rows log) (some orgId) :=
        view_kept (owned_applyAll alike.sound.rows own)

private theorem setTx_alike (alike : Alike issuer orgId state alone) (conn : Fin poolMax)
    {tx : Option (OrgTransaction Data)}
    (mine : ownConnection orgId ⟨(state.connections conn).session, tx⟩ =
      ⟨(state.connections conn).session, tx⟩) :
    ∀ other, setTx alone conn tx other = ownConnection orgId (setTx state conn tx other) := by
  have updated := own_update alike.connections conn ⟨(state.connections conn).session, tx⟩
  rw [mine, ← session_alike alike conn] at updated
  intro other
  rw [setTx, setTx, updated other, session_alike alike conn]

/-- An event of the organisation, or of the connections, is answered alike. -/
theorem alike_taken (issues : Issues issuer event) (spared : sparesGrants event answer = true)
    (alike : Alike issuer orgId state alone) (mine : concerns orgId event = true)
    (stepped : step state event = some (after, answer)) :
    ∃ next, step alone event = some (next, answer) ∧ Alike issuer orgId after next := by
  have sound := sound_step issues spared alike.sound stepped
  have closes (conn : Fin poolMax) :
      ∀ other, setTx alone conn none other = ownConnection orgId (setTx state conn none other) :=
    setTx_alike alike conn rfl
  cases event with
  | withOrg conn owner =>
      have owns : owner = orgId := by simpa [concerns, DbEvent.orgId] using mine
      subst owns
      obtain ⟨idle, ⟨left, rfl, rfl⟩ | ⟨clean, rfl, rfl⟩⟩ := step_withOrg stepped
      · refine ⟨alone, ?_, alike⟩
        rw [step, idle_alike alike idle]
        simp only [appCurrentOrg, idle_alike alike idle, Option.map_none, Option.none_or,
          session_alike alike conn, left, if_true]
      · have taken : step alone (.withOrg conn owner) = some
            ({ alone with connections := setTx alone conn (some ⟨owner, []⟩) }, .opened) := by
          rw [step, idle_alike alike idle]
          simp only [appCurrentOrg, idle_alike alike idle, Option.map_none, Option.none_or,
            session_alike alike conn, clean, Bool.false_eq_true, if_false]
        exact ⟨_, taken, sound, sound_step issues spared alike.soundAlone taken, alike.same,
          alike.drawn, setTx_alike alike conn (ownConnection_some _ _)⟩
  | statement conn owner keys changes =>
      have owns : owner = orgId := by simpa [concerns, DbEvent.orgId] using mine
      subst owns
      obtain ⟨log, running, new, outcome⟩ := step_statement stepped
      have sees := seenBy_alike alike running
      have fewer : ∀ key ∈ keys ++ alone.drawn, key ∈ keys ++ state.drawn := by
        intro key inside
        rcases List.mem_append.mp inside with here | known
        · exact List.mem_append_left _ here
        · exact List.mem_append_right _ (alike.drawn key known)
      have able : fresh alone.drawn keys (changes (seenBy alone conn ⟨owner, log⟩)) = true := by
        rw [sees]
        exact fresh_own alike.drawn new
      rcases outcome with ⟨violation, judged, rfl, rfl⟩ | ⟨found, judged, free, rfl, rfl⟩
      · have taken : step alone (.statement conn owner keys changes) = some
            (⟨alone.rows, keys ++ alone.drawn, setTx alone conn none⟩, .violation) := by
          rw [step, tx_alike alike running]
          simp only [true_and]
          rw [if_pos able, sees, judged]
        exact ⟨_, taken, sound, sound_step issues spared alike.soundAlone taken, alike.same, fewer,
          closes conn⟩
      · have taken : step alone (.statement conn owner keys changes) = some
            (⟨alone.rows, keys ++ alone.drawn, setTx alone conn (some ⟨owner, log ++ found⟩)⟩,
              .rows (seenBy state conn ⟨owner, log⟩)) := by
          rw [step, tx_alike alike running]
          simp only [true_and]
          rw [if_pos able, sees, judged]
          simp only
          rw [if_neg (by rw [waits_own alike.connections free]; exact Bool.false_ne_true)]
        exact ⟨_, taken, sound, sound_step issues spared alike.soundAlone taken, alike.same, fewer,
          setTx_alike alike conn (ownConnection_some _ _)⟩
  | commit conn owner =>
      have owns : owner = orgId := by simpa [concerns, DbEvent.orgId] using mine
      subst owns
      obtain ⟨log, running, rfl, rfl⟩ := step_commit stepped
      have own := alike.sound.logs conn _ running
      have taken : step alone (.commit conn owner) = some
          (⟨applyAll alone.rows log, alone.drawn, setTx alone conn none⟩, .ended) := by
        rw [step, tx_alike alike running]
        simp only
        rw [if_pos trivial]
      refine ⟨_, taken, sound, sound_step issues spared alike.soundAlone taken, ?_, alike.drawn,
        closes conn⟩
      show kept issuer owner (applyAll state.rows log) = kept issuer owner (applyAll alone.rows log)
      rw [kept_applyAll own, kept_applyAll own, alike.same]
  | rollback conn owner =>
      have owns : owner = orgId := by simpa [concerns, DbEvent.orgId] using mine
      subst owns
      obtain ⟨log, running, rfl, rfl⟩ := step_rollback stepped
      have taken : step alone (.rollback conn owner) = some
          ({ alone with connections := setTx alone conn none }, .ended) := by
        rw [step, tx_alike alike running]
        simp only
        rw [if_pos trivial]
      exact ⟨_, taken, sound, sound_step issues spared alike.soundAlone taken, alike.same,
        alike.drawn, closes conn⟩
  | setSession conn value =>
      obtain ⟨idle, rfl, rfl⟩ := step_setSession stepped
      have taken : step alone (.setSession conn value) = some ({ alone with
          connections := Function.update alone.connections conn ⟨value, none⟩ }, .ended) := by
        rw [step, idle_alike alike idle]
      exact ⟨_, taken, sound, sound_step issues spared alike.soundAlone taken, alike.same,
        alike.drawn, own_update alike.connections conn ⟨value, none⟩⟩

/-- An event of another organisation leaves the organisation's part as it is. -/
theorem alike_passed (issues : Issues issuer event) (spared : sparesGrants event answer = true)
    (alike : Alike issuer orgId state alone) (other : concerns orgId event = false)
    (stepped : step state event = some (after, answer)) :
    Alike issuer orgId after alone := by
  have sound := sound_step issues spared alike.sound stepped
  have closes {conn : Fin poolMax} {owner : RowId} {log : List (TenantChange Data)}
      (apart : owner ≠ orgId) (running : (state.connections conn).tx = some ⟨owner, log⟩) :
      ∀ conn', alone.connections conn' = ownConnection orgId (setTx state conn none conn') := by
    refine own_passed alike.connections conn ?_
    rw [ownConnection, ownConnection, running, filter_other apart]
    rfl
  cases event with
  | withOrg conn owner =>
      have apart : owner ≠ orgId := by simpa [concerns, DbEvent.orgId] using other
      obtain ⟨idle, ⟨_, rfl, _⟩ | ⟨_, rfl, _⟩⟩ := step_withOrg stepped
      · exact alike
      · refine ⟨sound, alike.soundAlone, alike.same, alike.drawn,
          own_passed alike.connections conn ?_⟩
        rw [ownConnection_other apart, ownConnection, idle]
        rfl
  | statement conn owner keys changes =>
      have apart : owner ≠ orgId := by simpa [concerns, DbEvent.orgId] using other
      have fewer : ∀ key ∈ alone.drawn, key ∈ keys ++ state.drawn :=
        fun key known => List.mem_append_right _ (alike.drawn key known)
      obtain ⟨log, running, _, ⟨_, _, rfl, _⟩ | ⟨found, _, _, rfl, _⟩⟩ := step_statement stepped
      · exact ⟨sound, alike.soundAlone, alike.same, fewer, closes apart running⟩
      · refine ⟨sound, alike.soundAlone, alike.same, fewer, own_passed alike.connections conn ?_⟩
        rw [ownConnection_other apart, ownConnection, running,
          filter_other apart]
  | commit conn owner =>
      have apart : owner ≠ orgId := by simpa [concerns, DbEvent.orgId] using other
      obtain ⟨log, running, rfl, _⟩ := step_commit stepped
      refine ⟨sound, alike.soundAlone, ?_, alike.drawn, closes apart running⟩
      exact (kept_applyAll_other apart (alike.sound.logs conn _ running)).trans alike.same
  | rollback conn owner =>
      have apart : owner ≠ orgId := by simpa [concerns, DbEvent.orgId] using other
      obtain ⟨log, running, rfl, _⟩ := step_rollback stepped
      exact ⟨sound, alike.soundAlone, alike.same, alike.drawn, closes apart running⟩
  | setSession conn value =>
      cases other

end Alone

/-! ### Keys -/

/-- The keys an event draws are new, and are drawn from then on. -/
private theorem drawn_step (stepped : step state event = some (after, answer)) :
    (∀ key ∈ event.keys, key ∉ state.drawn) ∧ after.drawn = event.keys ++ state.drawn := by
  cases event with
  | withOrg conn orgId =>
      obtain ⟨_, ⟨_, rfl, _⟩ | ⟨_, rfl, _⟩⟩ := step_withOrg stepped <;>
        exact ⟨fun key inside => (List.not_mem_nil inside).elim, rfl⟩
  | statement conn orgId keys changes =>
      obtain ⟨log, _, new, outcome⟩ := step_statement stepped
      rw [fresh, Bool.and_eq_true_iff, Bool.and_eq_true_iff] at new
      have unknown : ∀ key ∈ keys, key ∉ state.drawn := by
        intro key inside
        simpa using List.all_eq_true.mp new.1.1 key inside
      rcases outcome with ⟨_, _, rfl, _⟩ | ⟨_, _, _, rfl, _⟩ <;> exact ⟨unknown, rfl⟩
  | commit conn orgId =>
      obtain ⟨_, _, rfl, _⟩ := step_commit stepped
      exact ⟨fun key inside => (List.not_mem_nil inside).elim, rfl⟩
  | rollback conn orgId =>
      obtain ⟨_, _, rfl, _⟩ := step_rollback stepped
      exact ⟨fun key inside => (List.not_mem_nil inside).elim, rfl⟩
  | setSession conn value =>
      obtain ⟨_, rfl, _⟩ := step_setSession stepped
      exact ⟨fun key inside => (List.not_mem_nil inside).elim, rfl⟩

/-- A run draws keys that were not drawn before it, and each for one event. -/
private theorem drawn_run {final : DbState poolMax Data} {events : List (DbEvent poolMax Data)}
    {answers : List (DbEvent poolMax Data × DbAnswer Data)}
    (ran : traced step state events = some (final, answers)) :
    (∀ event ∈ events, ∀ key ∈ event.keys, key ∉ state.drawn) ∧
      events.Pairwise fun earlier later => ∀ key ∈ earlier.keys, key ∉ later.keys := by
  induction events generalizing state answers with
  | nil => exact ⟨fun event inside => (List.not_mem_nil inside).elim, List.Pairwise.nil⟩
  | cons event events inductionHypothesis =>
      obtain ⟨middle, answer, rest, stepped, later, rfl⟩ := traced_cons ran
      obtain ⟨new, grown⟩ := drawn_step stepped
      obtain ⟨news, apart⟩ := inductionHypothesis later
      rw [grown] at news
      refine ⟨List.forall_mem_cons.mpr ⟨new, ?_⟩, List.pairwise_cons.mpr ⟨?_, apart⟩⟩
      · intro other inside key drawn known
        exact news other inside key drawn (List.mem_append_right _ known)
      · intro other inside key mine theirs
        exact news other inside key theirs (List.mem_append_left _ mine)

end Steps

/-- Who keys are given to in a run: the organisation of the event that draws one, else whoever had
it before. -/
private def issuerOf (before : Issuer RowId RowId) (events : List (DbEvent poolMax Data)) :
    Issuer RowId RowId :=
  fun key =>
    match events.find? fun event => event.keys.contains key with
    | some event => event.orgId
    | none => before key

private theorem find_drawing {events : List (DbEvent poolMax Data)}
    (apart : events.Pairwise fun earlier later => ∀ key ∈ earlier.keys, key ∉ later.keys)
    {event : DbEvent poolMax Data} (inside : event ∈ events) {key : RowId}
    (drawn : key ∈ event.keys) :
    events.find? (fun event => event.keys.contains key) = some event := by
  induction events with
  | nil => cases inside
  | cons first rest inductionHypothesis =>
      obtain ⟨ahead, later⟩ := List.pairwise_cons.mp apart
      rcases List.mem_cons.mp inside with rfl | onward
      · exact List.find?_cons_of_pos (List.contains_iff_mem.mpr drawn)
      · have skipped : ¬ first.keys.contains key = true := fun here =>
          ahead event onward key (List.contains_iff_mem.mp here) drawn
        rw [List.find?_cons_of_neg
          (p := fun event : DbEvent poolMax Data => event.keys.contains key) skipped]
        exact inductionHypothesis later onward

/-- A database at rest whose rows have owners: no transaction is open, each row agrees with who its
key was given to, and its keys have been drawn. -/
structure AtRest (issuer : Issuer RowId RowId) (start : DbState poolMax Data) : Prop where
  owned : ∀ row ∈ start.rows, Owned TenantTable.scheme issuer row
  known : ∀ row ∈ start.rows, row.key ∈ start.drawn ∧ ∀ parent, row.parent = some parent →
    parent ∈ start.drawn
  idle : ∀ conn, (start.connections conn).tx = none

private theorem alike_start {issuer : Issuer RowId RowId} {start : DbState poolMax Data}
    (rest : AtRest issuer start) {events : List (DbEvent poolMax Data)}
    (news : ∀ event ∈ events, ∀ key ∈ event.keys, key ∉ start.drawn) (orgId : RowId) :
    Alike (issuerOf issuer events) orgId start start := by
  have before {key : RowId} (known : key ∈ start.drawn) :
      issuerOf issuer events key = issuer key := by
    have nobody : events.find? (fun event => event.keys.contains key) = none := by
      rw [List.find?_eq_none]
      intro event inside here
      exact news event inside key (List.contains_iff_mem.mp here) known
    rw [issuerOf, nobody]
  have sound : Sound (issuerOf issuer events) start := by
    refine ⟨fun row inside => ?_, fun conn tx running => ?_⟩
    · have owned := rest.owned row inside
      obtain ⟨known, above⟩ := rest.known row inside
      unfold Owned at owned ⊢
      rw [before known]
      split at owned
      · exact owned
      · exact owned
      · obtain ⟨parent, named, same⟩ := owned
        exact ⟨parent, named, (before (above parent named)).trans same⟩
    · rw [rest.idle conn] at running
      cases running
  refine ⟨sound, sound, rfl, fun key known => known, fun conn => ?_⟩
  have idle := rest.idle conn
  cases connection : start.connections conn with
  | mk session tx =>
      rw [connection] at idle
      cases idle
      rfl

/-- Whatever transactions of other organisations run in between, an organisation's events are
answered as in the run of those events alone, on the same connections, and the organisation sees the
same at the end, where no statement changes or deletes a grant of a shared role. -/
theorem withOrg_isolated (start final : DbState poolMax Data) (issuer : Issuer RowId RowId)
    (rest : AtRest issuer start) (events : List (DbEvent poolMax Data))
    (answers : List (DbEvent poolMax Data × DbAnswer Data))
    (ran : traced step start events = some (final, answers))
    (spared : ∀ told ∈ answers, sparesGrants told.1 told.2 = true) (orgId : RowId) :
    ∃ alone, traced step start (events.filter (concerns orgId)) =
        some (alone, answers.filter fun told => concerns orgId told.1) ∧
      view TenantTable.scheme alone.rows (some orgId) =
        view TenantTable.scheme final.rows (some orgId) := by
  obtain ⟨news, apart⟩ := drawn_run ran
  have issues : ∀ event ∈ events, Issues (issuerOf issuer events) event := by
    intro event inside owner mine key drawn
    rw [issuerOf, find_drawing apart inside drawn]
    exact mine
  let Fits (event : DbEvent poolMax Data) (answer : DbAnswer Data) : Prop :=
    Issues (issuerOf issuer events) event ∧ sparesGrants event answer = true
  have fits : ∀ told ∈ answers, Fits told.1 told.2 := by
    intro told inside
    refine ⟨issues told.1 ?_, spared told inside⟩
    rw [← traced_events ran]
    exact List.mem_map_of_mem inside
  have taken {state alone after : DbState poolMax Data} {event : DbEvent poolMax Data}
      {answer : DbAnswer Data} (fits : Fits event answer)
      (alike : Alike (issuerOf issuer events) orgId state alone)
      (mine : concerns orgId event = true) (stepped : step state event = some (after, answer)) :
      ∃ next, step alone event = some (next, answer) ∧
        Alike (issuerOf issuer events) orgId after next :=
    alike_taken fits.1 fits.2 alike mine stepped
  have passed {state alone after : DbState poolMax Data} {event : DbEvent poolMax Data}
      {answer : DbAnswer Data} (fits : Fits event answer)
      (alike : Alike (issuerOf issuer events) orgId state alone)
      (other : concerns orgId event = false) (stepped : step state event = some (after, answer)) :
      Alike (issuerOf issuer events) orgId after alone :=
    alike_passed fits.1 fits.2 alike other stepped
  obtain ⟨alone, traces, alike⟩ :=
    traced_projects taken passed fits (alike_start rest news orgId) ran
  refine ⟨alone, traces, ?_⟩
  rw [← view_kept alike.soundAlone.rows, ← alike.same, view_kept alike.sound.rows]

private theorem firstId_canonical :
    UUID (js "0f3b5c1e-7d24-4f6a-9b08-31c5a2e64d17") = true ∧
      (js "0f3b5c1e-7d24-4f6a-9b08-31c5a2e64d17").map lowerAscii =
        js "0f3b5c1e-7d24-4f6a-9b08-31c5a2e64d17" := by decide +kernel

private theorem secondId_canonical :
    UUID (js "a96e40d2-1c8f-4b73-8e5d-6f20b7c913a4") = true ∧
      (js "a96e40d2-1c8f-4b73-8e5d-6f20b7c913a4").map lowerAscii =
        js "a96e40d2-1c8f-4b73-8e5d-6f20b7c913a4" := by decide +kernel

private theorem sharedId_canonical :
    UUID (js "5d1f7a02-4b96-4c3e-a7d8-92e0b64f1c35") = true ∧
      (js "5d1f7a02-4b96-4c3e-a7d8-92e0b64f1c35").map lowerAscii =
        js "5d1f7a02-4b96-4c3e-a7d8-92e0b64f1c35" := by decide +kernel

private def firstId : RowId := ⟨js "0f3b5c1e-7d24-4f6a-9b08-31c5a2e64d17", firstId_canonical⟩

private def secondId : RowId := ⟨js "a96e40d2-1c8f-4b73-8e5d-6f20b7c913a4", secondId_canonical⟩

private def sharedId : RowId := ⟨js "5d1f7a02-4b96-4c3e-a7d8-92e0b64f1c35", sharedId_canonical⟩

/-- Two organisations, a shared role and a role of the second, and a grant of each role. -/
private def twoOrgs : DbState 2 Unit where
  rows := [⟨.organizations, firstId, some firstId, none, none, ()⟩,
    ⟨.organizations, secondId, some secondId, none, none, ()⟩,
    ⟨.userRoles, sharedId, none, none, none, ()⟩,
    ⟨.userRoles, secondId, some secondId, none, none, ()⟩,
    ⟨.userRolePermissions, sharedId, none, some sharedId, none, ()⟩,
    ⟨.userRolePermissions, secondId, none, some secondId, none, ()⟩]
  drawn := [firstId, secondId, sharedId]
  connections := fun _ => ⟨none, none⟩

/-- Whose the rows are. -/
private def twoIssuer : Issuer RowId RowId := fun key => if key = sharedId then none else some key

/-- A transaction of the first reads, while the second renames itself, deletes a grant, commits. -/
private def interleaved (grant : RowId) : List (DbEvent 2 Unit) :=
  [.withOrg 0 firstId, .statement 0 firstId [] fun _ => [], .withOrg 1 secondId,
    .statement 1 secondId [] fun _ =>
      [.update ⟨.organizations, secondId, some secondId, none, none, ()⟩,
        .delete .userRolePermissions grant],
    .commit 1 secondId, .statement 0 firstId [] fun _ => [], .commit 0 firstId]

private theorem twoOrgs_atRest : AtRest twoIssuer twoOrgs := by
  refine ⟨?_, ?_, fun _ => rfl⟩
  · intro row inside
    simp only [twoOrgs, List.mem_cons, List.not_mem_nil, or_false] at inside
    rcases inside with rfl | rfl | rfl | rfl | rfl | rfl
    · exact ⟨by decide +kernel, Option.some_ne_none _⟩
    · exact ⟨by decide +kernel, Option.some_ne_none _⟩
    · show none = twoIssuer sharedId
      decide +kernel
    · show some secondId = twoIssuer secondId
      decide +kernel
    · exact ⟨sharedId, rfl, rfl⟩
    · exact ⟨secondId, rfl, rfl⟩
  · intro row inside
    simp only [twoOrgs, List.mem_cons, List.not_mem_nil, or_false] at inside ⊢
    rcases inside with rfl | rfl | rfl | rfl | rfl | rfl <;>
      simp only [Option.some.injEq, reduceCtorEq, false_implies, implies_true, and_true, true_or,
        or_true, forall_eq']

/-- How many rows each statement of an organisation was answered with. -/
private def rowsSeen (answers : List (DbEvent 2 Unit × DbAnswer Unit)) : List Nat :=
  (answers.filter fun told => concerns firstId told.1).filterMap fun told =>
    match told.2 with
    | .rows seen => some seen.length
    | _ => none

/-- The first organisation's transaction is answered as if the second's had not run, where that one
deletes a grant of its own role. A grant of the shared role that it deletes is lost to the first. -/
theorem withOrg_isolated_example :
    (∃ final answers alone,
      traced step twoOrgs (interleaved secondId) = some (final, answers) ∧
        traced step twoOrgs ((interleaved secondId).filter (concerns firstId)) =
          some (alone, answers.filter fun told => concerns firstId told.1)) ∧
      (traced step twoOrgs (interleaved sharedId)).map (fun run => rowsSeen run.2) = some [3, 2] ∧
      (traced step twoOrgs ((interleaved sharedId).filter (concerns firstId))).map
        (fun run => rowsSeen run.2) = some [3, 3] := by
  refine ⟨?_, by decide +kernel, by decide +kernel⟩
  have runs : ((traced step twoOrgs (interleaved secondId)).any fun run =>
      run.2.all fun told => sparesGrants told.1 told.2) = true := by decide +kernel
  obtain ⟨⟨final, answers⟩, ran, spared⟩ := (Option.any_eq_true _ _).mp runs
  obtain ⟨alone, traces, _⟩ := withOrg_isolated twoOrgs final twoIssuer twoOrgs_atRest
    (interleaved secondId) answers ran (List.all_eq_true.mp spared) firstId
  exact ⟨final, answers, alone, ran, traces⟩

end Assaybank.Db.Tenancy
