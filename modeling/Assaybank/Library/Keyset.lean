import Mathlib.Data.Fintype.Card
import Mathlib.Data.List.Sort
import Mathlib.Order.RelClasses

/-!
Owns lists that are read a page at a time, each page from the key of the last row of the one before.

Contract: the pages of rows with distinct keys, put together, are the rows in their order, each
once (`readPages_eq`). Where rows come and go between two pages, the pages still come to an end
(`walk_ends`), ascend (`walk_ascends`), and hold every row that was there for all of them
(`walk_complete`).
-/

namespace Assaybank.Library.Keyset

/-! ### Descending order -/

section Descending

variable {First Second : Type} [LT First] [LT Second]

/-- Descending by the first part, and by the second where the first is the same. -/
def Descends (left right : First × Second) : Prop :=
  right.1 < left.1 ∨ (right.1 = left.1 ∧ right.2 < left.2)

instance [DecidableEq First] [DecidableLT First] [DecidableLT Second] :
    DecidableRel (Descends : First × Second → First × Second → Prop) :=
  fun _ _ => inferInstanceAs (Decidable (_ ∨ _))

instance [IsStrictTotalOrder First (· < ·)] [IsStrictTotalOrder Second (· < ·)] :
    IsStrictTotalOrder (First × Second) Descends where
  irrefl key forth := by
    cases forth with
    | inl later => exact irrefl_of (· < ·) _ later
    | inr same => exact irrefl_of (· < ·) _ same.2
  trans first second third early late := by
    cases early with
    | inl later =>
        cases late with
        | inl alsoLater => exact .inl (trans_of (· < ·) alsoLater later)
        | inr same => exact .inl (same.1 ▸ later)
    | inr same =>
        cases late with
        | inl later => exact .inl (same.1 ▸ later)
        | inr alsoSame => exact .inr ⟨alsoSame.1.trans same.1, trans_of (· < ·) alsoSame.2 same.2⟩
  trichotomous left right notForth notBack := by
    have first : left.1 = right.1 := by
      rcases trichotomous_of (· < ·) left.1 right.1 with earlier | same | later
      · exact absurd (.inl earlier) notBack
      · exact same
      · exact absurd (.inl later) notForth
    have second : left.2 = right.2 := by
      rcases trichotomous_of (· < ·) left.2 right.2 with earlier | same | later
      · exact absurd (.inr ⟨first, earlier⟩) notBack
      · exact same
      · exact absurd (.inr ⟨first.symm, later⟩) notForth
    exact Prod.ext first second

end Descending

/-! ### Pages -/

variable {Row Key : Type} (before : Key → Key → Prop) [DecidableRel before] (key : Row → Key)

/-- The rows in the order of their keys. -/
def ordered (rows : List Row) : List Row :=
  rows.insertionSort fun left right => ¬ before (key right) (key left)

/-- One page: its rows, and where the next one starts when there is one. -/
structure Page (Row Key : Type) where
  rows : List Row
  nextCursor : Option Key

/-- The page after a cursor. One row more than asked for is fetched, to see whether another page
follows. -/
def page (rows : List Row) (limit : Nat) (cursor : Option Key) : Page Row Key :=
  let found := (ordered before key
    (rows.filter fun row => cursor.all fun last => decide (before last (key row)))).take (limit + 1)
  let window := found.take limit
  ⟨window, if limit < found.length then window.getLast?.map key else none⟩

/-- The loop of a reader: page after page until no cursor is handed back. -/
def readPages (fetch : Option Key → Page Row Key) : Nat → Option Key → List Row
  | 0, _ => []
  | fuel + 1, cursor =>
      (fetch cursor).rows ++
        (fetch cursor).nextCursor.elim [] fun next => readPages fetch fuel (some next)

/-- Pages read one after the other until no cursor is handed back: the pages from `first` up to
`stop`, which start at a cursor, and what they serve together. A fetch may differ from page to
page, or fail. -/
inductive Walk {Answer Cursor : Type} (fetch : Nat → Option Cursor → Option (Page Answer Cursor)) :
    Nat → Option Cursor → Nat → List Answer → Prop
  | last {first : Nat} {cursor : Option Cursor} {served : List Answer}
      (fetched : fetch first cursor = some ⟨served, none⟩) :
      Walk fetch first cursor (first + 1) served
  | next {first stop : Nat} {cursor : Option Cursor} {served rest : List Answer} {onward : Cursor}
      (fetched : fetch first cursor = some ⟨served, some onward⟩)
      (walk : Walk fetch (first + 1) (some onward) stop rest) :
      Walk fetch first cursor stop (served ++ rest)

section Order

variable [IsStrictTotalOrder Key before] {before} {key} {rows : List Row}

omit [DecidableRel before] in
private theorem not_before_trans {first second third : Key} (early : ¬ before second first)
    (late : ¬ before third second) : ¬ before third first := by
  intro back
  rcases trichotomous_of before first second with forth | same | contrary
  · exact late (trans_of before back forth)
  · exact late (same ▸ back)
  · exact early contrary

variable (before) (key) (rows) in
omit [IsStrictTotalOrder Key before] in
theorem perm_ordered : (ordered before key rows).Perm rows := List.perm_insertionSort _ rows

/-- Rows with distinct keys are put in the one order their keys have. -/
theorem pairwise_ordered (distinct : (rows.map key).Nodup) :
    (ordered before key rows).Pairwise fun left right => before (key left) (key right) := by
  have total : Std.Total fun left right : Row => ¬ before (key right) (key left) := by
    constructor
    intro left right
    by_cases forth : before (key right) (key left)
    · exact .inr (asymm_of before forth)
    · exact .inl forth
  have transitive : IsTrans Row fun left right => ¬ before (key right) (key left) :=
    ⟨fun _ _ _ => not_before_trans⟩
  have sorted := List.pairwise_insertionSort
    (fun left right : Row => ¬ before (key right) (key left)) rows
  have apart : (ordered before key rows).Pairwise fun left right => key left ≠ key right := by
    apply List.pairwise_map.mp
    exact ((perm_ordered before key rows).map key).nodup_iff.mpr distinct
  apply (sorted.and apart).imp
  intro left right ⟨notBack, different⟩
  rcases trichotomous_of before (key left) (key right) with forth | same | back
  · exact forth
  · exact absurd same different
  · exact absurd back notBack

omit [DecidableRel before] in
/-- Two lists of the same rows in the order of their keys are one. -/
theorem eq_of_ordered {left right : List Row} (same : left.Perm right)
    (ascends : left.Pairwise fun left right => before (key left) (key right))
    (alsoAscends : right.Pairwise fun left right => before (key left) (key right)) :
    left = right := by
  apply List.Perm.eq_of_pairwise ?_ ascends alsoAscends same
  intro first second _ _ forth back
  exact absurd back (asymm_of before forth)

theorem ordered_filter (distinct : (rows.map key).Nodup) (keep : Row → Bool) :
    ordered before key (rows.filter keep) = (ordered before key rows).filter keep := by
  refine eq_of_ordered ?_ ?_ ((pairwise_ordered distinct).filter keep)
  · exact (perm_ordered before key _).trans ((perm_ordered before key rows).symm.filter keep)
  · exact pairwise_ordered (distinct.sublist (List.filter_sublist.map key))

/-- What comes after the last row of a part is the rest. -/
private theorem filter_after {done rest : List Row} {last : Row}
    (ascends : (done ++ last :: rest).Pairwise fun left right => before (key left) (key right)) :
    (done ++ last :: rest).filter (fun row => decide (before (key last) (key row))) = rest := by
  obtain ⟨_, later, earlier⟩ := List.pairwise_append.mp ascends
  obtain ⟨follows, _⟩ := List.pairwise_cons.mp later
  rw [List.filter_append, List.filter_cons_of_neg (by simpa using irrefl_of before (key last))]
  have none : done.filter (fun row => decide (before (key last) (key row))) = [] := by
    rw [List.filter_eq_nil_iff]
    intro row inside back
    have forth := earlier row inside last List.mem_cons_self
    exact asymm_of before forth (of_decide_eq_true back)
  have all : rest.filter (fun row => decide (before (key last) (key row))) = rest := by
    rw [List.filter_eq_self]
    intro row inside
    exact decide_eq_true (follows row inside)
  rw [none, all, List.nil_append]

/-- The page after the rows that were served: what comes next, and a cursor while rows are left. -/
private theorem page_eq {limit : Nat} {done rest : List Row} (distinct : (rows.map key).Nodup)
    (whole : ordered before key rows = done ++ rest) :
    page before key rows limit (done.getLast?.map key) =
      ⟨rest.take limit,
        if limit < rest.length then (rest.take limit).getLast?.map key else none⟩ := by
  have left : (ordered before key rows).filter (fun row =>
      (done.getLast?.map key).all fun last => decide (before last (key row))) = rest := by
    have ascends : (ordered before key rows).Pairwise fun left right =>
        before (key left) (key right) := pairwise_ordered distinct
    rw [whole] at ascends ⊢
    rcases List.eq_nil_or_concat done with rfl | ⟨front, last, rfl⟩
    · exact List.filter_eq_self.mpr fun _ _ => rfl
    · rw [List.concat_eq_append, List.append_assoc, List.singleton_append] at ascends
      rw [List.concat_eq_append, List.getLast?_concat, List.append_assoc, List.singleton_append]
      exact filter_after ascends
  unfold page
  rw [ordered_filter distinct, left]
  simp only [List.take_take, List.length_take]
  congr 1
  · congr 1
    omega
  · by_cases more : limit < rest.length
    · rw [if_pos more, if_pos (by omega)]
      congr 3
      omega
    · rw [if_neg more, if_neg (by omega)]

/-- The loop serves what is left, by induction on the rows that are. -/
private theorem readPages_from {limit : Nat} (positive : 0 < limit)
    (distinct : (rows.map key).Nodup) {fuel : Nat} {done rest : List Row}
    (whole : ordered before key rows = done ++ rest) (enough : rest.length < fuel) :
    readPages (page before key rows limit) fuel (done.getLast?.map key) = rest := by
  induction fuel generalizing done rest with
  | zero => omega
  | succ fuel inductionHypothesis =>
      rw [readPages, page_eq distinct whole]
      by_cases more : limit < rest.length
      · have served : rest.take limit ≠ [] := by
          apply List.ne_nil_of_length_pos
          rw [List.length_take]
          omega
        have onward : ordered before key rows = (done ++ rest.take limit) ++ rest.drop limit := by
          rw [List.append_assoc, List.take_append_drop]
          exact whole
        have fewer : (rest.drop limit).length < fuel := by
          rw [List.length_drop]
          omega
        have next := inductionHypothesis onward fewer
        rw [List.getLast?_append_of_ne_nil _ served] at next
        obtain ⟨last, found⟩ := List.getLast?_isSome.mpr served |> Option.isSome_iff_exists.mp
        rw [found] at next ⊢
        simp only [if_pos more, Option.map_some, Option.elim_some] at next ⊢
        rw [next, List.take_append_drop]
      · simp only [if_neg more, Option.elim_none, List.append_nil]
        exact List.take_of_length_le (by omega)

/-- The pages put together are the rows in their order, whatever the size of a page. -/
theorem readPages_eq {limit : Nat} (positive : 0 < limit) (distinct : (rows.map key).Nodup)
    {fuel : Nat} (enough : rows.length < fuel) :
    readPages (page before key rows limit) fuel none = ordered before key rows := by
  have whole : ordered before key rows = [] ++ ordered before key rows := rfl
  have fewer : (ordered before key rows).length < fuel := by
    rw [(perm_ordered before key rows).length_eq]
    exact enough
  exact readPages_from positive distinct whole fewer

/-! ### One page -/

variable (before) (key) (rows) in
/-- The rows after a cursor, in their order. -/
def following (cursor : Option Key) : List Row :=
  ordered before key
    (rows.filter fun row => cursor.all fun last => decide (before last (key row)))

omit [IsStrictTotalOrder Key before] in
theorem mem_following {cursor : Option Key} {row : Row} :
    row ∈ following before key rows cursor ↔
      row ∈ rows ∧ ∀ last ∈ cursor, before last (key row) := by
  rw [following, (perm_ordered before key _).mem_iff, List.mem_filter, Option.all_eq_true]
  simp only [decide_eq_true_eq, Option.mem_def]

theorem pairwise_following (distinct : (rows.map key).Nodup) (cursor : Option Key) :
    (following before key rows cursor).Pairwise fun left right =>
      before (key left) (key right) :=
  pairwise_ordered (distinct.sublist (List.filter_sublist.map key))

omit [IsStrictTotalOrder Key before] in
theorem page_following (limit : Nat) (cursor : Option Key) :
    page before key rows limit cursor =
      ⟨(following before key rows cursor).take limit,
        if limit < (following before key rows cursor).length then
          ((following before key rows cursor).take limit).getLast?.map key else none⟩ := by
  unfold page
  simp only
  rw [← following, List.take_take, List.length_take, Nat.min_eq_left (Nat.le_succ limit)]
  congr 1
  by_cases more : limit < (following before key rows cursor).length
  · rw [if_pos more, if_pos (by omega)]
  · rw [if_neg more, if_neg (by omega)]

omit [IsStrictTotalOrder Key before] in
/-- The last page serves all that follows its cursor. -/
private theorem following_of_last {limit : Nat} (positive : 0 < limit) {cursor : Option Key}
    {served : List Row} (fetched : page before key rows limit cursor = ⟨served, none⟩) :
    following before key rows cursor = served := by
  rw [page_following, Page.mk.injEq] at fetched
  obtain ⟨window, none⟩ := fetched
  rw [← window, List.take_of_length_le]
  by_contra more
  rw [if_pos (by omega), Option.map_eq_none_iff, List.getLast?_eq_none_iff,
    List.take_eq_nil_iff] at none
  cases none with
  | inl zero => omega
  | inr nil =>
      rw [nil] at more
      exact more (Nat.zero_le _)

omit [IsStrictTotalOrder Key before] in
/-- A page that another one follows ends in a row, whose key is handed back. -/
private theorem following_of_next {limit : Nat} {cursor : Option Key} {served : List Row}
    {onward : Key} (fetched : page before key rows limit cursor = ⟨served, some onward⟩) :
    ∃ front last rest, key last = onward ∧ served = front ++ [last] ∧
      following before key rows cursor = front ++ last :: rest := by
  rw [page_following, Page.mk.injEq] at fetched
  obtain ⟨window, handed⟩ := fetched
  split at handed
  · obtain ⟨last, found, same⟩ := Option.map_eq_some_iff.mp handed
    rw [window] at found
    obtain ⟨front, whole⟩ := List.getLast?_eq_some_iff.mp found
    refine ⟨front, last, (following before key rows cursor).drop limit, same, whole, ?_⟩
    rw [← List.singleton_append, ← List.append_assoc, ← whole, ← window, List.take_append_drop]
  · cases handed

/-! ### Rows that change from page to page -/

section Changing

variable {rowsAt : Nat → List Row} {limit first stop : Nat} {cursor : Option Key}
  {served : List Row}

variable (before) (key) (rowsAt) (limit) in
/-- Each page of the rows that are there when it is read. -/
def fetchAt (read : Nat) (cursor : Option Key) : Option (Page Row Key) :=
  some (page before key (rowsAt read) limit cursor)

omit [IsStrictTotalOrder Key before] [DecidableRel before] in
theorem walk_forward {Answer Cursor : Type}
    {fetch : Nat → Option Cursor → Option (Page Answer Cursor)} {cursor : Option Cursor}
    {answers : List Answer} (walk : Walk fetch first cursor stop answers) : first < stop := by
  induction walk with
  | last => exact Nat.lt_succ_self _
  | next _ _ inductionHypothesis => exact Nat.lt_of_succ_lt inductionHypothesis

omit [IsStrictTotalOrder Key before] in
/-- What is served was there when its page was read, and lies after the cursor. -/
theorem walk_sound (positive : 0 < limit)
    (walk : Walk (fetchAt before key rowsAt limit) first cursor stop served) :
    ∀ row ∈ served, ∃ read, first ≤ read ∧ read < stop ∧ row ∈ rowsAt read := by
  induction walk with
  | @last first cursor served fetched =>
      intro row inside
      rw [← following_of_last positive (Option.some.inj fetched)] at inside
      exact ⟨first, Nat.le_refl _, Nat.lt_succ_self _, (mem_following.mp inside).1⟩
  | @next first stop cursor served rest onward fetched walk inductionHypothesis =>
      intro row inside
      cases List.mem_append.mp inside with
      | inl now =>
          obtain ⟨front, last, others, _, rfl, whole⟩ :=
            following_of_next (Option.some.inj fetched)
          have among : row ∈ following before key (rowsAt first) cursor := by
            rw [whole, ← List.singleton_append, ← List.append_assoc]
            exact List.mem_append_left _ now
          exact ⟨first, Nat.le_refl _, Nat.lt_of_succ_lt (walk_forward walk),
            (mem_following.mp among).1⟩
      | inr after =>
          obtain ⟨read, low, high, there⟩ := inductionHypothesis row after
          exact ⟨read, Nat.le_of_succ_le low, high, there⟩

/-- The rows of a walk ascend, and lie after its cursor. -/
theorem walk_ascends (positive : 0 < limit) (distinct : ∀ read, ((rowsAt read).map key).Nodup)
    (walk : Walk (fetchAt before key rowsAt limit) first cursor stop served) :
    (served.Pairwise fun left right => before (key left) (key right)) ∧
      ∀ row ∈ served, ∀ last ∈ cursor, before last (key row) := by
  induction walk with
  | @last first cursor served fetched =>
      rw [← following_of_last positive (Option.some.inj fetched)]
      exact ⟨pairwise_following (distinct first) cursor, fun row inside =>
        (mem_following.mp inside).2⟩
  | @next first stop cursor served rest onward fetched walk inductionHypothesis =>
      obtain ⟨front, last, others, rfl, rfl, whole⟩ := following_of_next (Option.some.inj fetched)
      obtain ⟨ascends, later⟩ := inductionHypothesis
      have page : (front ++ last :: others).Pairwise fun left right =>
          before (key left) (key right) := by
        rw [← whole]
        exact pairwise_following (distinct first) cursor
      have after : ∀ row ∈ front ++ last :: others, ∀ start ∈ cursor, before start (key row) := by
        intro row inside
        rw [← whole] at inside
        exact (mem_following.mp inside).2
      obtain ⟨_, _, earlier⟩ := List.pairwise_append.mp page
      constructor
      · apply List.pairwise_append.mpr
        refine ⟨?_, ascends, ?_⟩
        · refine List.Pairwise.sublist ?_ page
          exact List.Sublist.append_left (List.singleton_sublist.mpr List.mem_cons_self) front
        · intro row now other following
          have onward := later other following (key last) rfl
          cases List.mem_append.mp now with
          | inl early =>
              exact trans_of _ (earlier row early last List.mem_cons_self) onward
          | inr itself =>
              rw [List.mem_singleton.mp itself]
              exact onward
      · intro row inside start from_
        cases List.mem_append.mp inside with
        | inl now =>
            apply after row _ start from_
            apply List.mem_append.mpr
            exact (List.mem_append.mp now).imp_right fun itself => by
              rw [List.mem_singleton.mp itself]
              exact List.mem_cons_self
        | inr following =>
            have onward := later row following (key last) rfl
            have itself := after last (List.mem_append_right _ List.mem_cons_self) start from_
            exact trans_of _ itself onward

/-- A row that is there for every page is served. -/
theorem walk_complete (positive : 0 < limit) (distinct : ∀ read, ((rowsAt read).map key).Nodup)
    (walk : Walk (fetchAt before key rowsAt limit) first cursor stop served) {sought : Key}
    (there : ∀ read, first ≤ read → read < stop → ∃ row ∈ rowsAt read, key row = sought)
    (after : ∀ last ∈ cursor, before last sought) : ∃ row ∈ served, key row = sought := by
  induction walk with
  | @last first cursor served fetched =>
      obtain ⟨row, inside, rfl⟩ := there first (Nat.le_refl _) (Nat.lt_succ_self _)
      refine ⟨row, ?_, rfl⟩
      rw [← following_of_last positive (Option.some.inj fetched)]
      exact mem_following.mpr ⟨inside, after⟩
  | @next first stop cursor served rest onward fetched walk inductionHypothesis =>
      obtain ⟨front, last, others, rfl, rfl, whole⟩ := following_of_next (Option.some.inj fetched)
      obtain ⟨row, inside, same⟩ :=
        there first (Nat.le_refl _) (Nat.lt_of_succ_lt (walk_forward walk))
      have among : row ∈ following before key (rowsAt first) cursor :=
        mem_following.mpr ⟨inside, by rw [same]; exact after⟩
      have page : (following before key (rowsAt first) cursor).Pairwise fun left right =>
          before (key left) (key right) := pairwise_following (distinct first) cursor
      rw [whole] at among page
      cases List.mem_append.mp among with
      | inl early =>
          exact ⟨row, List.mem_append_left _ (List.mem_append_left _ early), same⟩
      | inr rest =>
          cases List.mem_cons.mp rest with
          | inl itself =>
              refine ⟨row, List.mem_append_left _ (List.mem_append_right _ ?_), same⟩
              exact List.mem_singleton.mpr itself
          | inr later =>
              have beyond : before (key last) sought := by
                rw [← same]
                exact (List.pairwise_cons.mp (List.pairwise_append.mp page).2.1).1 row later
              obtain ⟨found, served, same⟩ := inductionHypothesis
                (fun read low high => there read (Nat.le_of_succ_le low) high)
                (fun last handed => Option.mem_some.mp handed ▸ beyond)
              exact ⟨found, List.mem_append_right _ served, same⟩

omit [IsStrictTotalOrder Key before] in
/-- One more page before a walk that ends. -/
private theorem walk_step (ends : ∀ onward, (∀ last ∈ cursor, before last onward) →
      ∃ stop served, Walk (fetchAt before key rowsAt limit) (first + 1) (some onward) stop served) :
    ∃ stop served, Walk (fetchAt before key rowsAt limit) first cursor stop served := by
  cases fetched : page before key (rowsAt first) limit cursor with
  | mk served nextCursor =>
      cases nextCursor with
      | none => exact ⟨_, _, .last (congrArg some fetched)⟩
      | some onward =>
          obtain ⟨front, last, others, rfl, rfl, whole⟩ := following_of_next fetched
          have among : last ∈ following before key (rowsAt first) cursor := by
            rw [whole]
            exact List.mem_append_right _ List.mem_cons_self
          obtain ⟨stop, rest, walk⟩ := ends (key last) (mem_following.mp among).2
          exact ⟨stop, _, .next (congrArg some fetched) walk⟩

omit [IsStrictTotalOrder Key before] in
/-- Whatever comes and goes, the pages end, for each starts after the one before. -/
theorem walk_ends (bounded : WellFounded fun onward last : Key => before last onward) :
    ∃ stop served, Walk (fetchAt before key rowsAt limit) first cursor stop served := by
  have from_ : ∀ last first, ∃ stop served,
      Walk (fetchAt before key rowsAt limit) first (some last) stop served := by
    intro last
    induction last using bounded.induction with
    | h last inductionHypothesis =>
        intro first
        apply walk_step
        intro onward after
        exact inductionHypothesis onward (after last rfl) (first + 1)
  apply walk_step
  intro onward _
  exact from_ onward (first + 1)

/-- Where nothing changes, the pages together are the rows. -/
theorem walk_unchanged (positive : 0 < limit) (distinct : ∀ read, ((rowsAt read).map key).Nodup)
    (walk : Walk (fetchAt before key rowsAt limit) first none stop served)
    (same : ∀ read, first ≤ read → read < stop → rowsAt read = rows) : served.Perm rows := by
  have once : served.Nodup := by
    apply (walk_ascends positive distinct walk).1.imp
    intro left right forth itself
    rw [itself] at forth
    exact irrefl_of before _ forth
  have start : rowsAt first = rows := same first (Nat.le_refl _) (walk_forward walk)
  have keys : (rows.map key).Nodup := by
    rw [← start]
    exact distinct first
  apply (List.perm_ext_iff_of_nodup once (List.Nodup.of_map key keys)).mpr
  have among : ∀ row ∈ served, row ∈ rows := by
    intro row inside
    obtain ⟨read, low, high, there⟩ := walk_sound positive walk row inside
    rw [same read low high] at there
    exact there
  intro row
  constructor
  · exact among row
  · intro inside
    obtain ⟨found, member, sameKey⟩ := walk_complete positive distinct walk
      (fun read low high => ⟨row, by rw [same read low high]; exact inside, rfl⟩) nofun
    rw [← List.inj_on_of_nodup_map keys (among found member) inside sameKey]
    exact member

end Changing

/-! ### Pages under another form -/

section Shown

variable {rowsAt : Nat → List Row} {limit first stop : Nat} {cursor : Option Key}
  {Answer Cursor : Type}

/-- A fetch that hands out rows and keys under another form, and reads a key that it handed out. -/
structure Shows (fetch : Nat → Option Cursor → Option (Page Answer Cursor))
    (before : Key → Key → Prop) [DecidableRel before] (key : Row → Key) (rowsAt : Nat → List Row)
    (limit : Nat) (answer : Row → Answer) (encode : Key → Cursor) (known : Key → Prop) : Prop where
  serves : ∀ read cursor, (∀ last ∈ cursor, known last) →
    fetch read (cursor.map encode) =
      some ⟨(page before key (rowsAt read) limit cursor).rows.map answer,
        (page before key (rowsAt read) limit cursor).nextCursor.map encode⟩
  knows : ∀ read, ∀ row ∈ rowsAt read, known (key row)

variable {fetch : Nat → Option Cursor → Option (Page Answer Cursor)} {answer : Row → Answer}
  {encode : Key → Cursor} {known : Key → Prop}

omit [IsStrictTotalOrder Key before] in
private theorem known_onward (shows : Shows fetch before key rowsAt limit answer encode known)
    {served : List Row} {onward : Key}
    (fetched : page before key (rowsAt first) limit cursor = ⟨served, some onward⟩) :
    known onward := by
  obtain ⟨front, last, others, rfl, _, whole⟩ := following_of_next fetched
  have among : last ∈ following before key (rowsAt first) cursor := by
    rw [whole]
    exact List.mem_append_right _ List.mem_cons_self
  exact shows.knows first last (mem_following.mp among).1

omit [IsStrictTotalOrder Key before] in
theorem walk_shown (shows : Shows fetch before key rowsAt limit answer encode known)
    {served : List Row} (walk : Walk (fetchAt before key rowsAt limit) first cursor stop served)
    (start : ∀ last ∈ cursor, known last) :
    Walk fetch first (cursor.map encode) stop (served.map answer) := by
  induction walk with
  | @last first cursor served fetched =>
      apply Walk.last
      rw [shows.serves first cursor start, Option.some.inj fetched]
      rfl
  | @next first stop cursor served rest onward fetched walk inductionHypothesis =>
      rw [List.map_append]
      have later : Walk fetch (first + 1) (some (encode onward)) stop (rest.map answer) := by
        apply inductionHypothesis
        intro last handed
        rw [← Option.mem_some.mp handed]
        exact known_onward shows (Option.some.inj fetched)
      apply Walk.next _ later
      rw [shows.serves first cursor start, Option.some.inj fetched]
      rfl

omit [IsStrictTotalOrder Key before] in
theorem walk_of_shown (shows : Shows fetch before key rowsAt limit answer encode known)
    {handed : Option Cursor} {answers : List Answer} (walk : Walk fetch first handed stop answers)
    (same : handed = cursor.map encode) (start : ∀ last ∈ cursor, known last) :
    ∃ served, answers = served.map answer ∧
      Walk (fetchAt before key rowsAt limit) first cursor stop served := by
  induction walk generalizing cursor with
  | @last first handed answers fetched =>
      rw [same, shows.serves first cursor start, Option.some.injEq, Page.mk.injEq,
        Option.map_eq_none_iff] at fetched
      obtain ⟨rfl, none⟩ := fetched
      refine ⟨_, rfl, .last ?_⟩
      rw [fetchAt, ← none]
  | @next first stop handed answers rest onward fetched walk inductionHypothesis =>
      rw [same, shows.serves first cursor start, Option.some.injEq, Page.mk.injEq,
        Option.map_eq_some_iff] at fetched
      obtain ⟨rfl, last, some, rfl⟩ := fetched
      have handed : known last := by
        apply known_onward shows
        rw [← some]
      have start : ∀ onward ∈ Option.some last, known onward :=
        fun onward handed' => Option.mem_some.mp handed' ▸ handed
      obtain ⟨served, rfl, following⟩ := inductionHypothesis rfl start
      refine ⟨_, (List.map_append).symm, .next ?_ following⟩
      rw [fetchAt, ← some]

end Shown

end Order

end Assaybank.Library.Keyset
