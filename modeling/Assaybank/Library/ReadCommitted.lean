import Assaybank.Library.Basic
import Mathlib.Data.List.Basic

/-!
Owns transactions on a whole store, interleaved statement by statement at the isolation level read
committed.

Contract: a statement sees the committed store under the transaction's own writes, as it stands when
the statement runs. What it writes claims keys until the transaction ends, and a statement waits
while another transaction holds a key it claims. A commit that breaks a declared constraint is
rolled back. An invariant of the committed store follows from each transaction alone, under
whatever the others may commit without the keys it holds (`Running.run`).

A transaction that the database aborts of itself, in a deadlock for one, is a crash here.
-/

namespace Assaybank.Library.ReadCommitted

/-- What a write does to a store, the keys it claims, and what the declared constraints allow. -/
structure Engine (Store Write Key : Type) where
  apply : Store → Write → Store
  keys : Write → List Key
  legal : Store → Bool

/-- What is left of a transaction: its statements in order, each with what it writes and what
follows from what it has seen. -/
inductive Tx (Store Write Error A : Type) where
  | done (a : A)
  | fail (error : Error)
  | statement (writes : Store → List Write) (next : Store → Tx Store Write Error A)

namespace Tx

variable {Store Write Error A B : Type}

def bind : Tx Store Write Error A → (A → Tx Store Write Error B) → Tx Store Write Error B
  | .done a, next => next a
  | .fail error, _ => .fail error
  | .statement writes rest, next => .statement writes fun row => (rest row).bind next

instance : Monad (Tx Store Write Error) where
  pure := .done
  bind := bind

/-- A statement that only reads. -/
def query (answer : Store → A) : Tx Store Write Error A :=
  .statement (fun _ => []) fun store => .done (answer store)

/-- A statement that writes, and answers. -/
def execute (effect : Store → List Write × A) : Tx Store Write Error A :=
  .statement (fun store => (effect store).1) fun store => .done (effect store).2

/-- A step that touches no row. -/
def ofExcept : Except Error A → Tx Store Write Error A
  | .ok a => .done a
  | .error error => .fail error

end Tx

/-- A transaction under way: its request, the committed stores its statements ran on, what it has
written so far, and what is left of it. -/
structure Session (Store Write Error Request A : Type) where
  request : Request
  seen : List Store
  wrote : List Write
  rest : Tx Store Write Error A

/-- The committed store, who holds each key, the transactions under way, and what was answered by
those that committed. -/
structure State (Store Write Key Error Request A : Type) where
  store : Store
  locks : Key → Option Nat
  sessions : Nat → Option (Session Store Write Error Request A)
  answered : List (Request × A)

/-- What a scheduler may do next. A crash abandons a transaction and what it holds. -/
inductive Event (Request : Type) where
  | start (session : Nat) (request : Request)
  | advance (session : Nat)
  | crash (session : Nat)

section Machine

variable {Store Write Key Error Request A : Type} (engine : Engine Store Write Key)

/-- A store under some writes. -/
def Engine.view (wrote : List Write) (store : Store) : Store := wrote.foldl engine.apply store

/-- What some writes claim. -/
def Engine.claims (wrote : List Write) : List Key := wrote.flatMap engine.keys

/-- What is left of a transaction, run with nothing beside it: what it answers, and all it wrote. -/
def Tx.alone (store : Store) : Tx Store Write Error A → List Write → Except Error (A × List Write)
  | .done a, wrote => .ok (a, wrote)
  | .fail error, _ => .error error
  | .statement writes next, wrote =>
      let row := engine.view wrote store
      (next row).alone store (wrote ++ writes row)

/-- What a transaction with nothing beside it answers, and the store it commits. -/
def Tx.committed (store : Store) (tx : Tx Store Write Error A) : Option (A × Store) :=
  match tx.alone engine store [] with
  | .ok (a, wrote) =>
      if engine.legal (engine.view wrote store) then some (a, engine.view wrote store) else none
  | .error _ => none

namespace State

/-- No transaction under way. -/
def idle (store : Store) : State Store Write Key Error Request A where
  store := store
  locks _ := none
  sessions _ := none
  answered := []

/-- The end of a transaction, with all it holds. -/
def release (state : State Store Write Key Error Request A) (id : Nat) :
    State Store Write Key Error Request A :=
  { state with
    locks := fun key => if state.locks key = some id then none else state.locks key
    sessions := Function.update state.sessions id none }

variable [DecidableEq Key]

/-- One statement of a transaction, its commit, or its failure. -/
def advance (state : State Store Write Key Error Request A) (id : Nat)
    (session : Session Store Write Error Request A) : State Store Write Key Error Request A :=
  match session.rest with
  | .statement writes next =>
      let row := engine.view session.wrote state.store
      if ∀ key ∈ engine.claims (writes row), state.locks key = none ∨ state.locks key = some id then
        { state with
          locks := fun key =>
            if key ∈ engine.claims (writes row) then some id else state.locks key
          sessions := Function.update state.sessions id
            (some { session with
              seen := session.seen ++ [state.store]
              wrote := session.wrote ++ writes row
              rest := next row }) }
      else state
  | .done a =>
      if engine.legal (engine.view session.wrote state.store) then
        { state.release id with
          store := engine.view session.wrote state.store
          answered := state.answered ++ [(session.request, a)] }
      else state.release id
  | .fail _ => state.release id

/-- One event. An event that is not enabled changes nothing. -/
def step (program : Request → Tx Store Write Error A)
    (state : State Store Write Key Error Request A) :
    Event Request → State Store Write Key Error Request A
  | .start id request =>
      if (state.sessions id).isNone then
        { state with
          sessions := Function.update state.sessions id (some ⟨request, [], [], program request⟩) }
      else state
  | .advance id => (state.sessions id).elim state (state.advance engine id)
  | .crash id => (state.sessions id).elim state fun _ => state.release id

def run (program : Request → Tx Store Write Error A)
    (state : State Store Write Key Error Request A) (events : List (Event Request)) :
    State Store Write Key Error Request A :=
  events.foldl (step engine program) state

/-- The transaction an event commits, and what it answers. -/
def commits (state : State Store Write Key Error Request A) :
    Event Request → Option (Session Store Write Error Request A × A)
  | .advance id =>
      (state.sessions id).bind fun session =>
        match session.rest with
        | .done a => if engine.legal (engine.view session.wrote state.store) then
            some (session, a) else none
        | _ => none
  | _ => none

/-- What holds of every commit of a run: of the transaction, its answer, and the store before. -/
def Each (program : Request → Tx Store Write Error A)
    (meets : Session Store Write Error Request A → A → Store → Prop) :
    State Store Write Key Error Request A → List (Event Request) → Prop
  | _, [] => True
  | state, event :: rest =>
      (∀ session a, state.commits engine event = some (session, a) →
        meets session a state.store) ∧ Each program meets (state.step engine program event) rest

/-- Whether a run meets a condition can be seen by running it. -/
def decidableEach (program : Request → Tx Store Write Error A)
    (meets : Session Store Write Error Request A → A → Store → Prop)
    [∀ session a store, Decidable (meets session a store)] :
    (state : State Store Write Key Error Request A) → (events : List (Event Request)) →
      Decidable (Each engine program meets state events)
  | _, [] => .isTrue trivial
  | state, event :: rest =>
      have : Decidable (Each engine program meets (state.step engine program event) rest) :=
        decidableEach program meets (state.step engine program event) rest
      decidable_of_iff ((∀ commit ∈ state.commits engine event,
          meets commit.1 commit.2 state.store) ∧
          Each engine program meets (state.step engine program event) rest)
        (and_congr_left fun _ =>
          ⟨fun each session a commit => each (session, a) commit,
            fun each commit made => each commit.1 commit.2 made⟩)

instance (program : Request → Tx Store Write Error A)
    (meets : Session Store Write Error Request A → A → Store → Prop)
    [∀ session a store, Decidable (meets session a store)]
    (state : State Store Write Key Error Request A) (events : List (Event Request)) :
    Decidable (Each engine program meets state events) :=
  decidableEach engine program meets state events

end State

end Machine

/-! ### What others may commit -/

section Interference

variable {Store Write Key : Type} (engine : Engine Store Write Key)

/-- What others may commit while a transaction holds what it wrote. -/
def Engine.Others (wrote : List Write) (before after : Store) : Prop :=
  ∃ writes, (∀ key ∈ engine.claims writes, key ∉ engine.claims wrote) ∧
    after = engine.view writes before

variable {engine} {wrote : List Write} {first second third : Store}

theorem others_refl : engine.Others wrote first first := ⟨[], nofun, rfl⟩

theorem others_trans (earlier : engine.Others wrote first second)
    (later : engine.Others wrote second third) : engine.Others wrote first third := by
  obtain ⟨before, apart, rfl⟩ := earlier
  obtain ⟨after, alsoApart, rfl⟩ := later
  refine ⟨before ++ after, ?_, ?_⟩
  · intro key claimed
    rw [Engine.claims, List.flatMap_append, List.mem_append] at claimed
    rcases claimed with inside | inside
    · exact apart key inside
    · exact alsoApart key inside
  · unfold Engine.view
    rw [List.foldl_append]

/-- Who holds more is disturbed less. -/
theorem others_of_append {more : List Write} (others : engine.Others (wrote ++ more) first second) :
    engine.Others wrote first second := by
  obtain ⟨writes, apart, rfl⟩ := others
  refine ⟨writes, fun key claimed mine => apart key claimed ?_, rfl⟩
  rw [Engine.claims, List.flatMap_append]
  exact List.mem_append_left _ mine

end Interference

/-! ### One transaction, whatever the others commit -/

section Rules

variable {Store Write Key Error A B : Type} (engine : Engine Store Write Key)
  (inv : Store → Prop)

/-- What is left of a transaction ends in a condition on its answer, the stores it saw, what it
wrote and the store then committed. Others may commit before each statement, and keep the
invariant. -/
def Tx.Sound (post : A → List Store → List Write → Store → Prop) :
    Tx Store Write Error A → List Store → List Write → Store → Prop
  | .done a, seen, wrote, store => post a seen wrote store
  | .fail _, _, _, _ => True
  | .statement writes next, seen, wrote, store =>
      ∀ now, engine.Others wrote store now → inv now →
        (next (engine.view wrote now)).Sound post (seen ++ [now])
          (wrote ++ writes (engine.view wrote now)) now

/-- A condition that still holds when the commit comes. -/
def Engine.Settled (meets : A → List Store → List Write → Store → Prop) (a : A)
    (seen : List Store) (wrote : List Write) (store : Store) : Prop :=
  ∀ now, engine.Others wrote store now → inv now → meets a seen wrote now

variable {engine inv} {post : A → List Store → List Write → Store → Prop} {seen : List Store}
  {wrote : List Write} {store : Store}

@[simp] theorem sound_pure (a : A) :
    (pure a : Tx Store Write Error A).Sound engine inv post seen wrote store ↔
      post a seen wrote store := Iff.rfl

@[simp] theorem sound_fail (error : Error) :
    (.fail error : Tx Store Write Error A).Sound engine inv post seen wrote store :=
  trivial

theorem sound_bind {first : Tx Store Write Error B} {next : B → Tx Store Write Error A} :
    (first >>= next).Sound engine inv post seen wrote store ↔
      first.Sound engine inv
        (fun b seen wrote store => (next b).Sound engine inv post seen wrote store)
        seen wrote store := by
  show (first.bind next).Sound engine inv post seen wrote store ↔ _
  induction first generalizing seen wrote store with
  | done b => exact Iff.rfl
  | fail error => exact Iff.rfl
  | statement writes rest inductionHypothesis =>
      apply forall_congr'
      intro now
      apply imp_congr_right
      intro _
      apply imp_congr_right
      intro _
      exact inductionHypothesis _

theorem sound_map {f : B → A} {tx : Tx Store Write Error B} :
    (f <$> tx).Sound engine inv post seen wrote store ↔
      tx.Sound engine inv (fun b => post (f b)) seen wrote store := sound_bind

@[simp] theorem sound_ofExcept (outcome : Except Error A) :
    (Tx.ofExcept outcome : Tx Store Write Error A).Sound engine inv post seen wrote store ↔
      ∀ a, outcome = .ok a → post a seen wrote store := by
  cases outcome with
  | error error => exact ⟨fun _ => nofun, fun _ => trivial⟩
  | ok a =>
      constructor
      · intro sound b same
        cases same
        exact sound
      · intro each
        exact each a rfl

theorem sound_query {answer : Store → A} :
    (Tx.query answer : Tx Store Write Error A).Sound engine inv post seen wrote store ↔
      ∀ now, engine.Others wrote store now → inv now →
        post (answer (engine.view wrote now)) (seen ++ [now]) wrote now := by
  apply forall_congr'
  intro now
  simp only [Tx.Sound, List.append_nil]

theorem sound_execute {effect : Store → List Write × A} :
    (Tx.execute effect : Tx Store Write Error A).Sound engine inv post seen wrote store ↔
      ∀ now, engine.Others wrote store now → inv now →
        post (effect (engine.view wrote now)).2 (seen ++ [now])
          (wrote ++ (effect (engine.view wrote now)).1) now := Iff.rfl

theorem sound_mono {weaker : A → List Store → List Write → Store → Prop}
    (implies : ∀ {a seen wrote store}, post a seen wrote store → weaker a seen wrote store)
    {tx : Tx Store Write Error A} (sound : tx.Sound engine inv post seen wrote store) :
    tx.Sound engine inv weaker seen wrote store := by
  induction tx generalizing seen wrote store with
  | done a => exact implies sound
  | fail error => trivial
  | statement writes rest inductionHypothesis =>
      intro now others holds
      exact inductionHypothesis _ (sound now others holds)

/-- What others commit meanwhile does no harm. -/
theorem sound_later {meets : A → List Store → List Write → Store → Prop} {now : Store}
    {tx : Tx Store Write Error A}
    (sound : tx.Sound engine inv (engine.Settled inv meets) seen wrote store)
    (others : engine.Others wrote store now) :
    tx.Sound engine inv (engine.Settled inv meets) seen wrote now := by
  cases tx with
  | done a =>
      intro later further holds
      exact sound later (others_trans others further) holds
  | fail error => trivial
  | statement writes rest =>
      intro later further holds
      exact sound later (others_trans others further) holds

end Rules

/-! ### Every run -/

section Runs

variable {Store Write Key Error Request A : Type} [DecidableEq Key] (engine : Engine Store Write Key)

/-- What is asked of a program: each admitted request, run alone among others, ends in what
`settles` says of it, and from there a commit keeps the invariant and the history. -/
structure Rules (program : Request → Tx Store Write Error A) (admitted : Request → Prop)
    (inv : Store → Prop) (history : List (Request × A) → Store → Prop)
    (settles : Request → A → List Store → List Write → Store → Prop)
    (meets : Session Store Write Error Request A → A → Store → Prop) : Prop where
  starts : ∀ {request store}, admitted request → inv store →
    (program request).Sound engine inv (engine.Settled inv (settles request)) [] [] store
  commits : ∀ {session a past store}, admitted session.request → inv store → history past store →
    settles session.request a session.seen session.wrote store → meets session a store →
    engine.legal (engine.view session.wrote store) = true →
      inv (engine.view session.wrote store) ∧
        history (past ++ [(session.request, a)]) (engine.view session.wrote store)

/-- Each transaction holds what it wrote, and ends in what is asked of it whatever others commit. -/
structure Running (admitted : Request → Prop) (inv : Store → Prop)
    (history : List (Request × A) → Store → Prop)
    (settles : Request → A → List Store → List Write → Store → Prop)
    (state : State Store Write Key Error Request A) : Prop where
  holds : inv state.store
  past : history state.answered state.store
  made : ∀ {id session}, state.sessions id = some session → admitted session.request
  owns : ∀ {id session}, state.sessions id = some session →
    ∀ key ∈ engine.claims session.wrote, state.locks key = some id
  sound : ∀ {id session}, state.sessions id = some session →
    session.rest.Sound engine inv (engine.Settled inv (settles session.request))
      session.seen session.wrote state.store

variable {engine} {program : Request → Tx Store Write Error A} {admitted : Request → Prop}
  {inv : Store → Prop} {history : List (Request × A) → Store → Prop}
  {settles : Request → A → List Store → List Write → Store → Prop}
  {meets : Session Store Write Error Request A → A → Store → Prop}
  {state : State Store Write Key Error Request A}

variable (engine) in
omit [DecidableEq Key] in
theorem running_idle {store : Store} (holds : inv store) (past : history [] store) :
    Running engine admitted inv history settles
      (State.idle store : State Store Write Key Error Request A) where
  holds := holds
  past := past
  made := nofun
  owns := nofun
  sound := nofun

omit [DecidableEq Key] in
/-- What an event commits. -/
theorem commits_eq_some {event : Event Request} {session : Session Store Write Error Request A}
    {a : A} :
    state.commits engine event = some (session, a) ↔
      ∃ id, event = .advance id ∧ state.sessions id = some session ∧ session.rest = .done a ∧
        engine.legal (engine.view session.wrote state.store) = true := by
  constructor
  · intro commit
    cases event with
    | start id request => cases commit
    | crash id => cases commit
    | advance id =>
        simp only [State.commits, Option.bind_eq_some_iff] at commit
        obtain ⟨found, mine, finished⟩ := commit
        split at finished
        · rename_i left
          split at finished
          · rename_i legal
            cases finished
            exact ⟨id, rfl, mine, left, legal⟩
          · cases finished
        · cases finished
  · rintro ⟨id, rfl, mine, left, legal⟩
    simp [State.commits, mine, left, legal]

/-- An event changes the committed store only by what it commits. -/
theorem store_step (event : Event Request) :
    (state.step engine program event).store =
      (state.commits engine event).elim state.store
        fun commit => engine.view commit.1.wrote state.store := by
  cases event with
  | start id request =>
      simp only [State.step, State.commits, Option.elim_none]
      split <;> rfl
  | crash id =>
      simp only [State.step, State.commits, Option.elim_none]
      cases state.sessions id <;> rfl
  | advance id =>
      simp only [State.step, State.commits]
      cases mine : state.sessions id with
      | none => rfl
      | some session =>
          simp only [Option.elim_some, Option.bind_some, State.advance]
          cases left : session.rest with
          | fail error => rfl
          | statement writes next =>
              simp only
              split <;> rfl
          | done a =>
              simp only
              split <;> rfl

omit [DecidableEq Key] in
/-- A transaction that ends leaves those of the others as they are. -/
private theorem running_release (running : Running engine admitted inv history settles state) {id : Nat}
    {session : Session Store Write Error Request A} (mine : state.sessions id = some session)
    {store : Store} {answered : List (Request × A)} (holds : inv store)
    (past : history answered store)
    (others : ∀ wrote, (∀ key ∈ engine.claims session.wrote, key ∉ engine.claims wrote) →
      engine.Others wrote state.store store) :
    Running engine admitted inv history settles
      { state.release id with store := store, answered := answered } := by
  refine ⟨holds, past, ?_, ?_, ?_⟩
  · intro other their found
    obtain ⟨rfl, ended⟩ | ⟨_, before⟩ := update_eq_some found
    · cases ended
    · exact running.made before
  · intro other their found key claimed
    obtain ⟨rfl, ended⟩ | ⟨different, before⟩ := update_eq_some found
    · cases ended
    have held := running.owns before key claimed
    show (if state.locks key = some id then none else state.locks key) = some other
    rw [if_neg, held]
    intro shared
    rw [held] at shared
    exact different (Option.some.inj shared)
  · intro other their found
    obtain ⟨rfl, ended⟩ | ⟨different, before⟩ := update_eq_some found
    · cases ended
    apply sound_later (running.sound before)
    apply others
    intro key claimed alsoClaimed
    have held := running.owns before key alsoClaimed
    rw [running.owns mine key claimed] at held
    exact different (Option.some.inj held).symm

/-- A statement that is granted what it claims. -/
private theorem running_statement (running : Running engine admitted inv history settles state) {id : Nat}
    {session : Session Store Write Error Request A} (mine : state.sessions id = some session)
    {writes : Store → List Write} {next : Store → Tx Store Write Error A}
    (left : session.rest = .statement writes next) {row : Store}
    (visible : row = engine.view session.wrote state.store)
    (free : ∀ key ∈ engine.claims (writes row),
      state.locks key = none ∨ state.locks key = some id) :
    Running engine admitted inv history settles
      { state with
        locks := fun key => if key ∈ engine.claims (writes row) then some id else state.locks key
        sessions := Function.update state.sessions id
          (some { session with
            seen := session.seen ++ [state.store]
            wrote := session.wrote ++ writes row
            rest := next row }) } := by
  refine ⟨running.holds, running.past, ?_, ?_, ?_⟩
  · intro other their found
    obtain ⟨rfl, granted⟩ | ⟨_, before⟩ := update_eq_some found
    · cases granted
      show admitted session.request
      exact running.made mine
    · exact running.made before
  · intro other their found key claimed
    show (if key ∈ engine.claims (writes row) then some id else state.locks key) = some other
    obtain ⟨rfl, granted⟩ | ⟨different, before⟩ := update_eq_some found
    · cases granted
      by_cases fresh : key ∈ engine.claims (writes row)
      · rw [if_pos fresh]
      · rw [if_neg fresh]
        apply running.owns mine
        rw [Engine.claims, List.flatMap_append, List.mem_append] at claimed
        exact claimed.resolve_right fresh
    · have held := running.owns before key claimed
      rw [if_neg, held]
      intro fresh
      rcases free key fresh with unheld | alsoMine
      · rw [held] at unheld
        cases unheld
      · rw [held] at alsoMine
        exact different (Option.some.inj alsoMine)
  · intro other their found
    obtain ⟨rfl, granted⟩ | ⟨different, before⟩ := update_eq_some found
    · cases granted
      have sound := running.sound mine
      rw [left] at sound
      subst visible
      exact sound state.store others_refl running.holds
    · exact running.sound before

omit [DecidableEq Key] in
/-- What an event commits has met what is asked of it. -/
theorem Running.settled (running : Running engine admitted inv history settles state)
    {event : Event Request} {session : Session Store Write Error Request A} {a : A}
    (commit : state.commits engine event = some (session, a)) :
    settles session.request a session.seen session.wrote state.store := by
  obtain ⟨id, rfl, mine, left, legal⟩ := commits_eq_some.mp commit
  have sound := running.sound mine
  rw [left] at sound
  exact sound state.store others_refl running.holds

theorem Running.step (rules : Rules engine program admitted inv history settles meets)
    (running : Running engine admitted inv history settles state) (event : Event Request)
    (request : ∀ {id request}, event = .start id request → admitted request)
    (met : ∀ session a, state.commits engine event = some (session, a) →
      meets session a state.store) :
    Running engine admitted inv history settles (state.step engine program event) := by
  cases event with
  | start id made =>
      simp only [State.step]
      split
      · refine ⟨running.holds, running.past, ?_, ?_, ?_⟩
        all_goals
          intro other their found
          obtain ⟨rfl, started⟩ | ⟨different, before⟩ := update_eq_some found
        · cases started
          exact request rfl
        · exact running.made before
        · cases started
          exact nofun
        · exact running.owns before
        · cases started
          exact rules.starts (request rfl) running.holds
        · exact running.sound before
      · exact running
  | crash id =>
      simp only [State.step]
      cases mine : state.sessions id with
      | none => exact running
      | some session =>
          exact running_release running mine running.holds running.past fun _ _ => others_refl
  | advance id =>
      simp only [State.step]
      cases mine : state.sessions id with
      | none => exact running
      | some session =>
          simp only [Option.elim_some, State.advance]
          cases left : session.rest with
          | fail error =>
              exact running_release running mine running.holds running.past fun _ _ => others_refl
          | statement writes next =>
              simp only
              split
              · rename_i free
                exact running_statement running mine left rfl free
              · exact running
          | done a =>
              simp only
              split
              · rename_i legal
                have commit : state.commits engine (.advance id) = some (session, a) :=
                  commits_eq_some.mpr ⟨id, rfl, mine, left, legal⟩
                obtain ⟨holds, past⟩ := rules.commits (running.made mine) running.holds running.past
                  (running.settled commit) (met session a commit) legal
                exact running_release running mine holds past fun _ apart => ⟨_, apart, rfl⟩
              · exact running_release running mine running.holds running.past fun _ _ => others_refl

/-- Whatever the interleaving, the invariant and the history hold. -/
theorem Running.run (rules : Rules engine program admitted inv history settles meets)
    (running : Running engine admitted inv history settles state) (events : List (Event Request))
    (requests : ∀ {id request}, .start id request ∈ events → admitted request)
    (each : State.Each engine program meets state events) :
    Running engine admitted inv history settles (state.run engine program events) := by
  induction events generalizing state with
  | nil => exact running
  | cons event rest inductionHypothesis =>
      apply inductionHypothesis (running.step rules event ?_ each.1) ?_ each.2
      · intro id request first
        subst first
        exact requests List.mem_cons_self
      · intro id request later
        exact requests (List.mem_cons_of_mem _ later)

/-- A condition on the commits of a run is one on those of its two parts. -/
theorem each_append (first second : List (Event Request)) :
    State.Each engine program meets state (first ++ second) ↔
      State.Each engine program meets state first ∧
        State.Each engine program meets (state.run engine program first) second := by
  induction first generalizing state with
  | nil => exact (iff_of_eq (true_and _)).symm
  | cons event rest inductionHypothesis =>
      show _ ∧ State.Each engine program meets _ (rest ++ second) ↔ (_ ∧ _) ∧ _
      rw [inductionHypothesis, and_assoc]
      rfl

theorem each_of_forall (always : ∀ session a store, meets session a store)
    (events : List (Event Request)) : State.Each engine program meets state events := by
  induction events generalizing state with
  | nil => trivial
  | cons event rest inductionHypothesis =>
      exact ⟨fun _ _ _ => always _ _ _, inductionHypothesis⟩

end Runs

/-! ### A transaction with nothing beside it -/

section Alone

variable {Store Write Key Error Request A B : Type} {engine : Engine Store Write Key}
  {store : Store} {wrote : List Write}

theorem alone_bind {first : Tx Store Write Error B} {next : B → Tx Store Write Error A} :
    (first >>= next).alone engine store wrote =
      (first.alone engine store wrote).bind fun ended => (next ended.1).alone engine store ended.2 := by
  show (first.bind next).alone engine store wrote = _
  induction first generalizing wrote with
  | done b => rfl
  | fail error => rfl
  | statement writes rest inductionHypothesis => exact inductionHypothesis _

theorem alone_query {answer : Store → A} :
    (Tx.query answer : Tx Store Write Error A).alone engine store wrote =
      .ok (answer (engine.view wrote store), wrote) := by
  show Except.ok (_, wrote ++ []) = _
  rw [List.append_nil]

theorem alone_execute {effect : Store → List Write × A} :
    (Tx.execute effect : Tx Store Write Error A).alone engine store wrote =
      .ok ((effect (engine.view wrote store)).2, wrote ++ (effect (engine.view wrote store)).1) := rfl

theorem alone_ofExcept (outcome : Except Error A) :
    (Tx.ofExcept outcome : Tx Store Write Error A).alone engine store wrote =
      outcome.map fun a => (a, wrote) := by
  cases outcome with
  | error error => rfl
  | ok a => rfl

/-- A transaction with nothing beside it commits what it wrote, if that is legal. -/
theorem run_alone [DecidableEq Key] {program : Request → Tx Store Write Error A} {id : Nat}
    (rest : Tx Store Write Error A) {state : State Store Write Key Error Request A}
    {session : Session Store Write Error Request A} (mine : state.sessions id = some session)
    (left : session.rest = rest)
    (free : ∀ key, state.locks key = none ∨ state.locks key = some id) {a : A}
    (ends : rest.alone engine state.store session.wrote = .ok (a, wrote))
    (legal : engine.legal (engine.view wrote state.store) = true) :
    ∃ steps, (state.run engine program (List.replicate steps (.advance id))).store =
        engine.view wrote state.store ∧
      (state.run engine program (List.replicate steps (.advance id))).answered =
        state.answered ++ [(session.request, a)] := by
  induction rest generalizing state session with
  | fail error => cases ends
  | done b =>
      cases ends
      refine ⟨1, ?_⟩
      show (state.step engine program (.advance id)).store = _ ∧
        (state.step engine program (.advance id)).answered = _
      simp only [State.step, mine, Option.elim_some, State.advance, left, if_pos legal, and_self]
  | statement writes next inductionHypothesis =>
      have granted : ∀ key ∈ engine.claims (writes (engine.view session.wrote state.store)),
          state.locks key = none ∨ state.locks key = some id := fun key _ => free key
      have mine' : (state.step engine program (.advance id)).sessions id = some { session with
          seen := session.seen ++ [state.store]
          wrote := session.wrote ++ writes (engine.view session.wrote state.store)
          rest := next (engine.view session.wrote state.store) } := by
        simp only [State.step, mine, Option.elim_some, State.advance, left, if_pos granted,
          Function.update_self]
      have free' : ∀ key, (state.step engine program (.advance id)).locks key = none ∨
          (state.step engine program (.advance id)).locks key = some id := by
        intro key
        simp only [State.step, mine, Option.elim_some, State.advance, left, if_pos granted]
        split
        · exact .inr rfl
        · exact free key
      have same : (state.step engine program (.advance id)).store = state.store := by
        simp only [State.step, mine, Option.elim_some, State.advance, left, if_pos granted]
      have answered : (state.step engine program (.advance id)).answered = state.answered := by
        simp only [State.step, mine, Option.elim_some, State.advance, left, if_pos granted]
      obtain ⟨steps, committed⟩ := inductionHypothesis _ mine' rfl free' (by rw [same]; exact ends)
        (by rw [same]; exact legal)
      rw [same, answered] at committed
      exact ⟨steps + 1, committed⟩

/-- What a transaction answers does not change what it commits. -/
theorem committed_map {tx : Tx Store Write Error B} {f : B → A} {b : B} {after : Store}
    (committed : tx.committed engine store = some (b, after)) :
    (f <$> tx).committed engine store = some (f b, after) := by
  have alone : (f <$> tx).alone engine store [] =
      (tx.alone engine store []).bind fun ended => .ok (f ended.1, ended.2) := alone_bind
  unfold Tx.committed at committed ⊢
  rw [alone]
  split at committed
  · rename_i answer wrote ends
    rw [ends]
    split at committed
    · rename_i legal
      cases committed
      exact if_pos legal
    · cases committed
  · cases committed

/-- What a transaction commits with nothing beside it, a run of the machine commits. -/
theorem run_committed [DecidableEq Key] {program : Request → Tx Store Write Error A}
    {request : Request} {a : A} {after : Store}
    (committed : (program request).committed engine store = some (a, after)) :
    ∃ events, ((State.idle store : State Store Write Key Error Request A).run engine program
        events).store = after ∧
      ((State.idle store : State Store Write Key Error Request A).run engine program
        events).answered = [(request, a)] := by
  unfold Tx.committed at committed
  split at committed
  · rename_i answer wrote ends
    split at committed
    · rename_i legal
      cases committed
      let started : State Store Write Key Error Request A :=
        (State.idle store).step engine program (.start 0 request)
      have mine : started.sessions 0 = some ⟨request, [], [], program request⟩ := by
        simp [started, State.step, State.idle]
      obtain ⟨steps, stored, answered⟩ :=
        run_alone (program request) mine rfl (fun _ => .inl rfl) ends legal
      exact ⟨.start 0 request :: List.replicate steps (.advance 0), stored, answered⟩
    · cases committed
  · cases committed

end Alone

end Assaybank.Library.ReadCommitted
