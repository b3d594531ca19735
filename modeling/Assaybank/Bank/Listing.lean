import Assaybank.Db.Cursor
import Assaybank.Contracts.Errors
import Assaybank.Runtime.Calendar
import Mathlib.Data.List.MinMax

/-!
Owns the list of questions (`packages/db/src/questions.ts`): its rows, its filters, and a page.

Contract: following the cursors from the first page to the last returns every matching row that is
there throughout, once, newest first, whatever is inserted or deleted between two pages
(`each_question_once`).

The text of a `timestamptz`, the cast back from it and `ILIKE` are the database's, and are
parameters here.
-/

namespace Assaybank.Bank

open Assaybank.Runtime Assaybank.Contracts Assaybank.Db Assaybank.Library.Keyset

/-! ### Rows -/

/-- What one version of a question is listed with. -/
structure ListedVersion where
  id : RowId
  versionNo : Nat
  difficulty : Int
  promptMd : JsString
  publishedAt : Option Timestamp

/-- A row of `questions`, with the versions and the tags that name it. Identifiers are minted by
`gen_random_uuid()`. -/
structure QuestionRow where
  id : RowId
  kind : QuestionKind
  status : QuestionStatus
  externalRef : Option JsString
  sourceLicense : Option JsString
  exposureCount : Nat
  archivedAt : Option Timestamp
  createdAt : Timestamp
  currentVersionId : Option RowId
  versions : List ListedVersion
  skillIds : List RowId
  minted : (isUuid id.text && currentVersionId.all fun version => isUuid version.text) = true

/-- The version the question points at. -/
def QuestionRow.currentVersion (row : QuestionRow) : Option ListedVersion :=
  row.currentVersionId.bind fun id => row.versions.find? fun version => version.id = id

/-- The highest version, in any state. -/
def QuestionRow.latest (row : QuestionRow) : Option ListedVersion :=
  row.versions.argmax ListedVersion.versionNo

/-! ### The query -/

/-- What the list asks of the database. -/
structure Postgres where
  timestampText : Timestamp → JsString
  timestamptz : JsString → Option Timestamp
  ilike : JsString → JsString → Bool

/-- Whether an instant is written as `2026-10-20 09:00:00.123456+00`, and read back. -/
def Postgres.Writes (postgres : Postgres) (instant : Timestamp) : Prop :=
  TIMESTAMP (postgres.timestampText instant) = true ∧
    postgres.timestamptz (postgres.timestampText instant) = some instant

structure ListQuestionsQuery where
  kind : Option QuestionKind
  status : Option QuestionStatus
  skillId : Option Uuid
  difficulty : Option Int
  q : Option JsString
  exposureGt : Option Nat
  includeArchived : Option Bool
  limit : Nat
  cursor : Option JsString

/-- Escapes a search term for `ILIKE`. -/
def escapeLike (term : JsString) : JsString :=
  replaceAll (js "_") (js "\\_") (replaceAll (js "%") (js "\\%")
    (replaceAll (js "\\") (js "\\\\") term))

/-- Whether a row passes every filter of a query. -/
def Postgres.meets (postgres : Postgres) (query : ListQuestionsQuery) (row : QuestionRow) : Bool :=
  (query.includeArchived == some true || row.archivedAt.isNone) &&
    query.kind.all (fun kind => row.kind == kind) &&
      query.status.all (fun status => row.status == status) &&
        query.exposureGt.all (fun exposure => decide (exposure < row.exposureCount)) &&
          query.difficulty.all
              (fun difficulty => row.latest.any fun latest => latest.difficulty == difficulty) &&
            query.skillId.all
                (fun skillId => (readUuid skillId).any fun id => row.skillIds.contains id) &&
              query.q.all fun q => row.versions.any fun version =>
                postgres.ilike (js "%" ++ escapeLike q ++ js "%") version.promptMd

/-! ### A page -/

structure QuestionSummaryRecord where
  id : Uuid
  kind : QuestionKind
  status : QuestionStatus
  externalRef : Option JsString
  sourceLicense : Option JsString
  exposureCount : Nat
  archivedAt : Option Int
  createdAt : Int
  currentVersionId : Option Uuid
  currentPublishedAt : Option Int
  latestVersionNo : Option Nat
  latestDifficulty : Option Int
  latestPromptMd : Option JsString
deriving DecidableEq

/-- An instant as a `Date`, which holds milliseconds. -/
def toDate (instant : Timestamp) : Int := instant.micros / 1000

/-- The record of a row. -/
def QuestionRow.summary (row : QuestionRow) : QuestionSummaryRecord where
  id := row.id.text
  kind := row.kind
  status := row.status
  externalRef := row.externalRef
  sourceLicense := row.sourceLicense
  exposureCount := row.exposureCount
  archivedAt := row.archivedAt.map toDate
  createdAt := toDate row.createdAt
  currentVersionId := row.currentVersionId.map RowId.text
  currentPublishedAt := row.currentVersion.bind fun version => version.publishedAt.map toDate
  latestVersionNo := row.latest.map ListedVersion.versionNo
  latestDifficulty := row.latest.map ListedVersion.difficulty
  latestPromptMd := row.latest.map ListedVersion.promptMd

/-- The record of a row, whose identifiers are parsed. -/
def toSummaryRecord (row : QuestionRow) : Except ApiError QuestionSummaryRecord :=
  if isUuid row.id.text && row.currentVersionId.all fun version => isUuid version.text then
    .ok row.summary
  else .error .internal

/-- The key the list is ordered by. -/
def QuestionRow.key (row : QuestionRow) : Timestamp × RowId := (row.createdAt, row.id)

/-- The cursor of a row that ends a page. -/
def Postgres.cursor (postgres : Postgres) (key : Timestamp × RowId) : JsString :=
  encodeKeysetCursor ⟨postgres.timestampText key.1, key.2.text⟩

/-- The page after a key: `ORDER BY q.created_at DESC, q.id DESC LIMIT` one more than asked for. -/
def listPage (postgres : Postgres) (rows : List QuestionRow) (query : ListQuestionsQuery)
    (after : Option (Timestamp × RowId)) : Except ApiError (Page QuestionSummaryRecord JsString) :=
  let found := page Descends QuestionRow.key (rows.filter (postgres.meets query)) query.limit after
  (found.rows.mapM toSummaryRecord).map fun records =>
    ⟨records, found.nextCursor.map postgres.cursor⟩

/-- A cursor that does not decode is no cursor, and a decoded one that the database does not take
fails the query. -/
def listQuestions (postgres : Postgres) (rows : List QuestionRow) (query : ListQuestionsQuery) :
    Except ApiError (Page QuestionSummaryRecord JsString) :=
  match query.cursor.bind decodeKeysetCursor with
  | none => listPage postgres rows query none
  | some keyset =>
      match postgres.timestamptz keyset.createdAt, readUuid keyset.id with
      | some createdAt, some id => listPage postgres rows query (some (createdAt, id))
      | _, _ => .error .internal

/-! ### Every page -/

section Pages

variable {postgres : Postgres} {query : ListQuestionsQuery} {stores : Nat → List QuestionRow}

variable (postgres) (query) (stores) in
/-- The page a cursor hands out, of the rows that are there when it is read. -/
def fetchQuestions (read : Nat) (cursor : Option JsString) :
    Option (Page QuestionSummaryRecord JsString) :=
  (listQuestions postgres (stores read) { query with cursor := cursor }).toOption

variable (postgres) (query) (stores) in
/-- The matching rows, as they are when a page is read. -/
def matching (read : Nat) : List QuestionRow := (stores read).filter (postgres.meets query)

private theorem mapM_toSummaryRecord (rows : List QuestionRow) :
    rows.mapM toSummaryRecord = .ok (rows.map QuestionRow.summary) := by
  induction rows with
  | nil => rfl
  | cons row rest inductionHypothesis =>
      rw [List.mapM_cons, inductionHypothesis, toSummaryRecord, if_pos row.minted]
      rfl

private theorem listPage_eq (rows : List QuestionRow) (after : Option (Timestamp × RowId)) :
    listPage postgres rows query after =
      .ok ⟨(page Descends QuestionRow.key (rows.filter (postgres.meets query)) query.limit
          after).rows.map QuestionRow.summary,
        (page Descends QuestionRow.key (rows.filter (postgres.meets query)) query.limit
          after).nextCursor.map postgres.cursor⟩ := by
  rw [listPage, mapM_toSummaryRecord]
  rfl

/-- A key that was handed out is read back. -/
private theorem shows_pages (written : ∀ read, ∀ row ∈ stores read, postgres.Writes row.createdAt) :
    Shows (fetchQuestions postgres query stores) Descends QuestionRow.key
      (matching postgres query stores) query.limit QuestionRow.summary postgres.cursor
      fun key => postgres.Writes key.1 where
  serves read cursor known := by
    unfold fetchQuestions listQuestions
    cases cursor with
    | none =>
        simp only [Option.map_none, Option.bind_none]
        rw [listPage_eq]
        rfl
    | some key =>
        obtain ⟨shape, back⟩ := known key rfl
        simp only [Option.map_some, Option.bind_some, Postgres.cursor]
        rw [decodeKeysetCursor_encodeKeysetCursor shape key.2.canonical.1]
        simp only
        rw [back, readUuid_text]
        simp only
        rw [listPage_eq]
        rfl
  knows read row inside := written read row (List.mem_of_mem_filter inside)

/-- What following the cursors of a list gives. -/
structure EachOnce (postgres : Postgres) (query : ListQuestionsQuery)
    (stores : Nat → List QuestionRow) : Prop where
  /-- The cursors come to an end. -/
  ends : ∃ stop served, Walk (fetchQuestions postgres query stores) 0 none stop served
  /-- What is served matches, and comes newest first. -/
  newestFirst : ∀ {stop served}, Walk (fetchQuestions postgres query stores) 0 none stop served →
    ∃ rows : List QuestionRow, served = rows.map QuestionRow.summary ∧
      (rows.Pairwise fun left right => Descends left.key right.key) ∧
        ∀ row ∈ rows, postgres.meets query row = true ∧ ∃ read < stop, row ∈ stores read
  /-- A matching row that is there for every page is served once. -/
  once : ∀ {stop served}, Walk (fetchQuestions postgres query stores) 0 none stop served →
    ∀ id createdAt, (∀ read < stop, ∃ row ∈ stores read,
        row.id = id ∧ row.createdAt = createdAt ∧ postgres.meets query row = true) →
      served.countP (fun record => record.id == id.text) = 1
  /-- Where no row comes or goes, the matching rows are served. -/
  unchanged : ∀ {stop served}, Walk (fetchQuestions postgres query stores) 0 none stop served →
    (∀ read < stop, stores read = stores 0) →
      ∃ rows : List QuestionRow, served = rows.map QuestionRow.summary ∧
        (rows.Pairwise fun left right => Descends left.key right.key) ∧
          rows.Perm ((stores 0).filter (postgres.meets query))
  /-- A cursor is decoded to what it was encoded from. -/
  recovered : ∀ row read, row ∈ stores read →
    decodeKeysetCursor (postgres.cursor row.key) =
      some ⟨postgres.timestampText row.createdAt, row.id.text⟩

private theorem keys_nodup (ids : ∀ read, ((stores read).map QuestionRow.id).Nodup) (read : Nat) :
    ((matching postgres query stores read).map QuestionRow.key).Nodup := by
  apply List.Nodup.of_map Prod.snd
  rw [List.map_map]
  exact (ids read).sublist (List.filter_sublist.map QuestionRow.id)

private theorem keys_bounded :
    WellFounded fun onward last : Timestamp × RowId => Descends last onward := by
  have transitive : IsTrans (Timestamp × RowId) fun onward last => Descends last onward :=
    ⟨fun _ _ _ late early => trans_of Descends early late⟩
  have irreflexive : Std.Irrefl fun onward last : Timestamp × RowId => Descends last onward :=
    ⟨fun key => irrefl_of Descends key⟩
  exact Finite.wellFounded_of_trans_of_irrefl _

/-- A row that is served under an identifier that is there throughout is the row that is there. -/
private theorem key_of_id (ids : ∀ read, ((stores read).map QuestionRow.id).Nodup) {stop : Nat}
    {key : Timestamp × RowId}
    (there : ∀ read < stop, ∃ row ∈ matching postgres query stores read, row.key = key)
    {row : QuestionRow} (sound : ∃ read, 0 ≤ read ∧ read < stop ∧
      row ∈ matching postgres query stores read) (same : row.id.text = key.2.text) :
    row.key = key := by
  obtain ⟨read, _, before, inside⟩ := sound
  obtain ⟨other, member, rfl⟩ := there read before
  rw [List.inj_on_of_nodup_map (ids read) (List.mem_of_mem_filter inside)
    (List.mem_of_mem_filter member) (RowId.ext_text same)]

/-- Among rows in order, the identifier of one is counted once where no other key has it. -/
private theorem count_once {rows : List QuestionRow}
    (descends : rows.Pairwise fun left right => Descends left.key right.key)
    {key : Timestamp × RowId} (present : ∃ row ∈ rows, row.key = key)
    (only : ∀ row ∈ rows, row.id.text = key.2.text → row.key = key) :
    (rows.map QuestionRow.summary).countP (fun record => record.id == key.2.text) = 1 := by
  obtain ⟨row, inside, same⟩ := present
  have once : (rows.map QuestionRow.key).Nodup := by
    apply List.pairwise_map.mpr
    apply descends.imp
    intro left right forth itself
    rw [itself] at forth
    exact irrefl_of Descends _ forth
  have byKey : rows.countP (fun row => row.id.text == key.2.text) =
      rows.countP fun row => row.key == key := by
    apply List.countP_congr
    intro row inside
    rw [beq_iff_eq, beq_iff_eq]
    constructor
    · exact only row inside
    · intro same
      exact congrArg (fun key : Timestamp × RowId => key.2.text) same
  rw [List.countP_map]
  calc rows.countP (fun row => row.id.text == key.2.text)
      = (rows.map QuestionRow.key).count key := by
        rw [byKey, List.count, List.countP_map]
        rfl
    _ = 1 := List.count_eq_one_of_mem once (same ▸ List.mem_map_of_mem inside)

/-- Following the cursors from the first page returns every matching row once, newest first,
whatever comes and goes in between. -/
theorem each_question_once (ids : ∀ read, ((stores read).map QuestionRow.id).Nodup)
    (written : ∀ read, ∀ row ∈ stores read, postgres.Writes row.createdAt)
    (positive : 1 ≤ query.limit) : EachOnce postgres query stores := by
  have shows : Shows (fetchQuestions postgres query stores) Descends QuestionRow.key
      (matching postgres query stores) query.limit QuestionRow.summary postgres.cursor
      fun key => postgres.Writes key.1 := shows_pages written
  have distinct : ∀ read, ((matching postgres query stores read).map QuestionRow.key).Nodup :=
    keys_nodup ids
  have underlying : ∀ {stop served},
      Walk (fetchQuestions postgres query stores) 0 none stop served → ∃ rows,
        served = rows.map QuestionRow.summary ∧
          Walk (fetchAt Descends QuestionRow.key (matching postgres query stores) query.limit) 0
            none stop rows := by
    intro stop served walk
    exact walk_of_shown shows walk rfl fun last none => absurd none (Option.not_mem_none last)
  refine ⟨?_, ?_, ?_, ?_, ?_⟩
  · have ends : ∃ stop rows, Walk (fetchAt Descends QuestionRow.key
        (matching postgres query stores) query.limit) 0 none stop rows := walk_ends keys_bounded
    obtain ⟨stop, rows, walk⟩ := ends
    exact ⟨stop, _, walk_shown shows walk fun last none => absurd none (Option.not_mem_none last)⟩
  · intro stop served walk
    obtain ⟨rows, rfl, pages⟩ := underlying walk
    refine ⟨rows, rfl, (walk_ascends positive distinct pages).1, ?_⟩
    intro row inside
    obtain ⟨read, _, before, there⟩ := walk_sound positive pages row inside
    obtain ⟨member, meets⟩ := List.mem_filter.mp there
    exact ⟨meets, read, before, member⟩
  · intro stop served walk id createdAt present
    obtain ⟨rows, rfl, pages⟩ := underlying walk
    have there : ∀ read < stop, ∃ row ∈ matching postgres query stores read,
        row.key = (createdAt, id) := by
      intro read before
      obtain ⟨row, inside, rfl, rfl, meets⟩ := present read before
      exact ⟨row, List.mem_filter.mpr ⟨inside, meets⟩, rfl⟩
    obtain ⟨row, inside, same⟩ := walk_complete positive distinct pages
      (fun read _ before => there read before)
      fun last none => absurd none (Option.not_mem_none last)
    exact count_once (walk_ascends positive distinct pages).1 ⟨row, inside, same⟩
      fun row inside => key_of_id ids there (walk_sound positive pages row inside)
  · intro stop served walk same
    obtain ⟨rows, rfl, pages⟩ := underlying walk
    refine ⟨rows, rfl, (walk_ascends positive distinct pages).1, ?_⟩
    apply walk_unchanged positive distinct pages
    intro read _ before
    rw [matching, same read before]
  · intro row read inside
    exact decodeKeysetCursor_encodeKeysetCursor (written read row inside).1 row.id.canonical.1

end Pages

/-! ### A list that grows -/

/-- A `timestamptz` as a session in UTC writes it. -/
def utcText (instant : Timestamp) : JsString :=
  let date := civilFromDays (instant.micros / 86400000000)
  let inDay := instant.micros % 86400000000
  let fraction := inDay % 1000000
  fieldText 4 date.year ++ js "-" ++ fieldText 2 date.month ++ js "-" ++ fieldText 2 date.day ++
    js " " ++ fieldText 2 (inDay / 3600000000) ++ js ":" ++ fieldText 2 (inDay / 60000000 % 60) ++
      js ":" ++ fieldText 2 (inDay / 1000000 % 60) ++
        (if fraction = 0 then [] else
          js "." ++ (fieldText 6 fraction).rdropWhile fun c => c == unit '0') ++ js "+00"

/-- The instant of such a text. -/
def readUtc (s : JsString) : Option Timestamp :=
  let field := fun start width : Nat => (parseDigits 10 (slice s start (start + width)) : Int)
  let fraction := ((s.drop 20).takeWhile isDigit).rightpad 6 (unit '0')
  let micros := daysFromCivil ⟨field 0 4, field 5 2, field 8 2⟩ * 86400000000 +
    field 11 2 * 3600000000 + field 14 2 * 60000000 + field 17 2 * 1000000 +
      if s[19]? = some (unit '.') then (parseDigits 10 fraction : Int) else 0
  if inRange : -210866803200000000 ≤ micros ∧ micros < 9224318016000000000 then
    some ⟨micros, inRange⟩
  else none

/-- A database in UTC. The list is not searched. -/
def utc : Postgres where
  timestampText := utcText
  timestamptz := readUtc
  ilike _ _ := false

/-- A draft, by its identifier and the microsecond it was created. -/
def draftRow (id : RowId) (createdAt : Timestamp)
    (minted : (isUuid id.text && (none : Option RowId).all fun version => isUuid version.text) =
      true) : QuestionRow :=
  { id, createdAt, minted, kind := .coding, status := .draft, externalRef := none
    sourceLicense := none, exposureCount := 0, archivedAt := none, currentVersionId := none
    versions := [], skillIds := [] }

/-- Two drafts of one instant, in the middle of a second. -/
def drafts : List QuestionRow :=
  [draftRow ⟨js "7c1a2b3d-4e5f-4a6b-8c9d-0e1f2a3b4c5d", by decide⟩ ⟨1792486800123456, by decide⟩
      (by decide),
    draftRow ⟨js "0b1a2b3d-4e5f-4a6b-8c9d-0e1f2a3b4c5d", by decide⟩ ⟨1792486800123456, by decide⟩
      (by decide)]

/-- A draft created a second later. -/
def laterDraft : QuestionRow :=
  draftRow ⟨js "5c1a2b3d-4e5f-4a6b-8c9d-0e1f2a3b4c5d", by decide⟩ ⟨1792486801000000, by decide⟩
    (by decide)

/-- The drafts one by one, with the later one inserted after the first page. -/
theorem each_question_once_example :
    EachOnce utc
      { kind := none, status := some .draft, skillId := none, difficulty := none, q := none
        exposureGt := none, includeArchived := none, limit := 1, cursor := none }
      (fun read => if read = 0 then drafts else laterDraft :: drafts) := by
  apply each_question_once
  · intro read
    cases read with
    | zero => decide
    | succ read =>
        show ((laterDraft :: drafts).map QuestionRow.id).Nodup
        decide
  · have written : ∀ row ∈ laterDraft :: drafts, utc.Writes row.createdAt := by
      unfold Postgres.Writes
      decide +kernel
    intro read row inside
    apply written row
    cases read with
    | zero => exact List.mem_cons_of_mem _ inside
    | succ read => exact inside
  · decide

end Assaybank.Bank
