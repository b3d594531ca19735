import Assaybank.Markdown.Url

/-!
Owns the reading of a destination's character references that `decodeEntities` is
meant to be (`packages/markdown/src/url.ts`): one pass from left to right, each
reference replaced where it stands. It proves that the successive replacements of the
code agree with that pass exactly when no named reference is spelled by text a
replacement produced. It does not own what `safeUrl` makes of the result.
-/

namespace Assaybank.Markdown

open Assaybank.Runtime

/-- A named reference of the table, with what it stands for. -/
abbrev NamedEntity := { entity : JsString × JsString // entity ∈ NAMED_ENTITIES }

/-- A piece of a destination once its references are read: a unit, written as itself
or by a numeric reference, or a named reference. -/
inductive Piece where
  | plain (c : CodeUnit)
  | named (entity : NamedEntity)
deriving DecidableEq

/-- How a piece is written once the references of `done` have been replaced. -/
def Piece.spelled (done : List (JsString × JsString)) : Piece → JsString
  | .plain c => [c]
  | .named entity => if entity.1 ∈ done then entity.1.2 else entity.1.1

/-- How a run of pieces is written once the references of `done` have been replaced. -/
def spelling (done : List (JsString × JsString)) (pieces : List Piece) : JsString :=
  pieces.flatMap (Piece.spelled done)

/-- The numeric reference at the start of a text: the units it stands for and the
length of its source. One that names no code point stands for itself. -/
def numericAt : JsString → Option (JsString × Nat)
  | c :: d :: body =>
      if c = unit '&' ∧ d = unit '#' then
        (numericEntity body).map fun found =>
          (if 0 < found.1 ∧ found.1 ≤ 0x10FFFF then fromCodePoint found.1
            else c :: d :: body.take found.2, found.2 + 2)
      else none
  | _ => none

/-- The named reference at the start of a text. -/
def namedAt (s : JsString) : Option NamedEntity :=
  NAMED_ENTITIES.attach.find? fun entity => entity.1.1.isPrefixOf s

/-- A text cut into pieces by one pass from left to right. -/
def pieces : JsString → List Piece
  | [] => []
  | c :: rest =>
      match numericAt (c :: rest) with
      | some (units, taken) => units.map .plain ++ pieces (rest.drop (taken - 1))
      | none =>
          match namedAt (c :: rest) with
          | some entity => .named entity :: pieces (rest.drop (entity.1.1.length - 1))
          | none => .plain c :: pieces rest
termination_by s => s.length
decreasing_by all_goals simp; try omega

/-- Every character reference replaced once, by one pass from left to right that never
reads the text a replacement produced. -/
def decodeOnce (input : JsString) : JsString := spelling NAMED_ENTITIES (pieces input)

/-- Wherever the decoded text spells this reference, its ampersand was written as the
reference itself. -/
def SettledFor (entity : NamedEntity) (items : List Piece) : Prop :=
  ∀ tail, tail <:+ items → entity.1.1 <+: spelling NAMED_ENTITIES tail →
    tail.head? = some (.named entity)

/-- No named reference is spelled by text a replacement produced, other than an `&amp;`
whose ampersand was written `&amp;`. -/
def Settled (items : List Piece) : Prop := ∀ entity, SettledFor entity items

/-! ### The table of named references -/

/-- The name of a reference: what follows its ampersand. -/
def NamedEntity.name (entity : NamedEntity) : JsString := entity.1.1.tail

/-- What is read off the table of one reference, and of two. -/
private theorem entity_table :
    (∀ entity ∈ NAMED_ENTITIES, entity.1 = unit '&' :: entity.1.tail ∧
        entity.2 = [entity.2.headD 0] ∧ unit '&' ∉ entity.1.tail ∧
        entity.1.tail.head? ≠ some (unit '#') ∧ entity.1.tail ≠ [] ∧
        (entity.2 = [unit '&'] → NAMED_ENTITIES.head? = some entity)) ∧
      ∀ entity ∈ NAMED_ENTITIES, ∀ other ∈ NAMED_ENTITIES,
        (entity.2.all fun c => !other.1.tail.contains c) = true ∧
          (entity.1 <+: other.1 → entity = other) := by
  decide +kernel

private theorem entity_source (entity : NamedEntity) :
    entity.1.1 = unit '&' :: entity.name :=
  (entity_table.1 entity.1 entity.2).1

private theorem entity_text (entity : NamedEntity) : ∃ c, entity.1.2 = [c] :=
  ⟨_, (entity_table.1 entity.1 entity.2).2.1⟩

private theorem ampersand_not_mem_name (entity : NamedEntity) :
    unit '&' ∉ entity.name :=
  (entity_table.1 entity.1 entity.2).2.2.1

private theorem name_ne_nil (entity : NamedEntity) : entity.name ≠ [] :=
  (entity_table.1 entity.1 entity.2).2.2.2.2.1

/-- What a reference stands for is in no reference's name. -/
private theorem text_not_mem_name (entity other : NamedEntity) :
    ∀ c ∈ entity.1.2, c ∉ other.name := by
  intro c inside
  simpa [NamedEntity.name] using
    List.all_eq_true.mp (entity_table.2 entity.1 entity.2 other.1 other.2).1 c inside

/-- No reference starts another. -/
private theorem prefix_free {entity other : NamedEntity}
    (starts : entity.1.1 <+: other.1.1) : entity = other :=
  Subtype.ext ((entity_table.2 entity.1 entity.2 other.1 other.2).2 starts)

/-- `&amp;`, the only reference that stands for an ampersand, is replaced first. -/
private theorem ampersand_first {done todo : List (JsString × JsString)}
    {entity : JsString × JsString} (table : done ++ entity :: todo = NAMED_ENTITIES)
    {other : NamedEntity} (stands : other.1.2 = [unit '&']) :
    other.1 = entity ∨ other.1 ∈ done := by
  have only := (entity_table.1 other.1 other.2).2.2.2.2.2 stands
  have first : (done ++ entity :: todo).head? = some other.1 :=
    (congrArg List.head? table).trans only
  cases done with
  | nil =>
      left
      simpa using first.symm
  | cons head rest =>
      right
      have : head = other.1 := by simpa using first
      simp [this]

/-! ### How pieces are written -/

@[simp] theorem spelling_nil (done : List (JsString × JsString)) : spelling done [] = [] := rfl

@[simp] theorem spelling_cons (done : List (JsString × JsString)) (piece : Piece)
    (rest : List Piece) :
    spelling done (piece :: rest) = piece.spelled done ++ spelling done rest :=
  List.flatMap_cons

@[simp] theorem spelling_append (done : List (JsString × JsString)) (left right : List Piece) :
    spelling done (left ++ right) = spelling done left ++ spelling done right :=
  List.flatMap_append

@[simp] theorem spelled_plain (done : List (JsString × JsString)) (c : CodeUnit) :
    (Piece.plain c).spelled done = [c] := rfl

@[simp] theorem spelling_plain (done : List (JsString × JsString)) (word : JsString) :
    spelling done (word.map .plain) = word := by
  induction word with
  | nil => rfl
  | cons c rest inductionHypothesis =>
      rw [List.map_cons, spelling_cons, inductionHypothesis]
      rfl

private theorem spelled_of_mem {done : List (JsString × JsString)} {entity : NamedEntity}
    (replaced : entity.1 ∈ done) : (Piece.named entity).spelled done = entity.1.2 := if_pos replaced

private theorem spelled_of_not_mem {done : List (JsString × JsString)} {entity : NamedEntity}
    (waiting : entity.1 ∉ done) : (Piece.named entity).spelled done = entity.1.1 := if_neg waiting

/-- With every reference replaced, a piece is written as one unit. -/
private theorem length_spelled (piece : Piece) : (piece.spelled NAMED_ENTITIES).length = 1 := by
  cases piece with
  | plain c => rfl
  | named entity =>
      obtain ⟨c, single⟩ := entity_text entity
      rw [spelled_of_mem entity.2, single]
      rfl

private theorem length_spelling (items : List Piece) :
    (spelling NAMED_ENTITIES items).length = items.length := by
  induction items with
  | nil => rfl
  | cons piece rest inductionHypothesis =>
      rw [spelling_cons, List.length_append, length_spelled, inductionHypothesis,
        List.length_cons, Nat.add_comm]

/-- A piece is written with an ampersand in front, or as one unit that is in no name. -/
private theorem spelled_shape (done : List (JsString × JsString)) (piece : Piece) :
    (∃ c, piece = .plain c) ∨ (∃ text, piece.spelled done = unit '&' :: text) ∨
      ∃ c, piece.spelled done = [c] ∧ ∀ entity : NamedEntity, c ∉ entity.name := by
  cases piece with
  | plain c => exact Or.inl ⟨c, rfl⟩
  | named entity =>
      right
      by_cases replaced : entity.1 ∈ done
      · right
        obtain ⟨c, single⟩ := entity_text entity
        refine ⟨c, (spelled_of_mem replaced).trans single, fun other => ?_⟩
        exact text_not_mem_name entity other c (by rw [single]; exact List.mem_singleton_self c)
      · left
        exact ⟨entity.name, (spelled_of_not_mem replaced).trans (entity_source entity)⟩

/-- Units of a name are only ever written by plain pieces. -/
private theorem plain_run {done : List (JsString × JsString)} {entity : NamedEntity}
    {word : JsString} (part : ∀ c ∈ word, c ∈ entity.name) {items : List Piece}
    (starts : word <+: spelling done items) : ∃ rest, items = word.map .plain ++ rest := by
  induction word generalizing items with
  | nil => exact ⟨items, rfl⟩
  | cons first word inductionHypothesis =>
      cases items with
      | nil => simp at starts
      | cons piece rest =>
          have named : first ∈ entity.name := part first List.mem_cons_self
          rw [spelling_cons] at starts
          rcases spelled_shape done piece with ⟨c, rfl⟩ | ⟨text, written⟩ | ⟨c, written, foreign⟩
          · rw [spelled_plain, List.singleton_append, List.cons_prefix_cons] at starts
            obtain ⟨same, later⟩ := starts
            obtain ⟨tail, split⟩ := inductionHypothesis
              (fun d member => part d (List.mem_cons_of_mem _ member)) later
            exact ⟨tail, by rw [same, split]; rfl⟩
          · rw [written, List.cons_append, List.cons_prefix_cons] at starts
            rw [starts.1] at named
            exact absurd named (ampersand_not_mem_name entity)
          · rw [written, List.cons_append, List.cons_prefix_cons] at starts
            rw [starts.1] at named
            exact absurd named (foreign entity)

/-- A reference is spelled by a piece that is that reference and still waits, or by a
piece written `&` with the units of the name after it. -/
private theorem spelled_start {done : List (JsString × JsString)} {entity : NamedEntity}
    {items : List Piece} (starts : entity.1.1 <+: spelling done items) :
    (entity.1 ∉ done ∧ ∃ rest, items = .named entity :: rest) ∨
      ∃ head rest, items = head :: entity.name.map .plain ++ rest ∧
        head.spelled done = [unit '&'] := by
  cases items with
  | nil => simp [entity_source] at starts
  | cons head rest =>
      rw [spelling_cons] at starts
      have one : head.spelled done = [unit '&'] →
          ∃ tail, rest = entity.name.map .plain ++ tail := by
        intro written
        rw [written, entity_source, List.singleton_append, List.cons_prefix_cons] at starts
        exact plain_run (fun c member => member) starts.2
      cases head with
      | plain c =>
          have same : c = unit '&' := by
            rw [spelled_plain, entity_source, List.singleton_append,
              List.cons_prefix_cons] at starts
            exact starts.1.symm
          have written : (Piece.plain c).spelled done = [unit '&'] := by rw [same]; rfl
          obtain ⟨tail, split⟩ := one written
          exact Or.inr ⟨_, tail, by rw [split]; rfl, written⟩
      | named other =>
          by_cases replaced : other.1 ∈ done
          · obtain ⟨c, single⟩ := entity_text other
            have written : (Piece.named other).spelled done = [c] :=
              (spelled_of_mem replaced).trans single
            have same : c = unit '&' := by
              rw [written, entity_source, List.singleton_append, List.cons_prefix_cons] at starts
              exact starts.1.symm
            rw [same] at written
            obtain ⟨tail, split⟩ := one written
            exact Or.inr ⟨_, tail, by rw [split]; rfl, written⟩
          · rw [spelled_of_not_mem replaced] at starts
            have equal : entity = other := by
              rcases List.prefix_or_prefix_of_prefix starts (List.prefix_append _ _)
                with shorter | longer
              · exact prefix_free shorter
              · exact (prefix_free longer).symm
            left
            rw [equal]
            exact ⟨replaced, rest, rfl⟩

/-! ### One replacement over the whole text -/

private theorem replaceAll_hit (entity : NamedEntity) (replacement rest : JsString) :
    replaceAll entity.1.1 replacement (entity.1.1 ++ rest) =
      replacement ++ replaceAll entity.1.1 replacement rest := by
  have source := entity_source entity
  generalize entity.1.1 = needle at source
  subst source
  rw [List.cons_append, replaceAll, if_pos ⟨List.cons_ne_nil _ _, by
    rw [List.isPrefixOf_iff_prefix]
    exact List.prefix_append _ _⟩]
  simp

private theorem replaceAll_miss {entity : NamedEntity} {replacement rest : JsString}
    {c : CodeUnit} (absent : ¬ entity.1.1 <+: c :: rest) :
    replaceAll entity.1.1 replacement (c :: rest) =
      c :: replaceAll entity.1.1 replacement rest := by
  rw [replaceAll, if_neg]
  rintro ⟨_, found⟩
  exact absent (List.isPrefixOf_iff_prefix.mp found)

/-- Units other than an ampersand are passed over. -/
private theorem replaceAll_skip (entity : NamedEntity) (replacement rest : JsString)
    {word : JsString} (inert : unit '&' ∉ word) :
    replaceAll entity.1.1 replacement (word ++ rest) =
      word ++ replaceAll entity.1.1 replacement rest := by
  induction word with
  | nil => rfl
  | cons c word inductionHypothesis =>
      have absent : ¬ entity.1.1 <+: c :: (word ++ rest) := by
        rw [entity_source, List.cons_prefix_cons]
        rintro ⟨same, _⟩
        exact inert (same ▸ List.mem_cons_self)
      rw [List.cons_append, replaceAll_miss absent,
        inductionHypothesis fun member => inert (List.mem_cons_of_mem _ member)]
      rfl

/-- A piece at which the reference does not start is passed over. -/
private theorem replaceAll_pass {done : List (JsString × JsString)} {entity : NamedEntity}
    (replacement : JsString) {piece : Piece} {rest : JsString}
    (absent : ¬ entity.1.1 <+: piece.spelled done ++ rest) :
    replaceAll entity.1.1 replacement (piece.spelled done ++ rest) =
      piece.spelled done ++ replaceAll entity.1.1 replacement rest := by
  have shape : ∃ c word, piece.spelled done = c :: word ∧ unit '&' ∉ word := by
    cases piece with
    | plain c => exact ⟨c, [], rfl, List.not_mem_nil⟩
    | named other =>
        by_cases replaced : other.1 ∈ done
        · obtain ⟨c, single⟩ := entity_text other
          exact ⟨c, [], (spelled_of_mem replaced).trans single, List.not_mem_nil⟩
        · exact ⟨_, _, (spelled_of_not_mem replaced).trans (entity_source other),
            ampersand_not_mem_name other⟩
  obtain ⟨c, word, written, inert⟩ := shape
  rw [written, List.cons_append] at absent ⊢
  rw [replaceAll_miss absent, replaceAll_skip entity replacement rest inert]
  rfl

/-- The same condition, on the text as it stands when the reference's turn comes. -/
private def Waits (done : List (JsString × JsString)) (entity : NamedEntity)
    (items : List Piece) : Prop :=
  ∀ tail, tail <:+ items → entity.1.1 <+: spelling done tail → tail.head? = some (.named entity)

private theorem waits_cons {done : List (JsString × JsString)} {entity : NamedEntity}
    {piece : Piece} {rest : List Piece} :
    Waits done entity (piece :: rest) ↔
      (entity.1.1 <+: spelling done (piece :: rest) → piece = .named entity) ∧
        Waits done entity rest := by
  constructor
  · intro waits
    refine ⟨fun starts => ?_, fun tail suffix => ?_⟩
    · simpa using waits _ List.suffix_rfl starts
    · exact waits tail (suffix.trans (List.suffix_cons _ _))
  · rintro ⟨here, later⟩ tail suffix starts
    rcases List.suffix_cons_iff.mp suffix with rfl | shorter
    · rw [here starts]
      rfl
    · exact later tail shorter starts

/-- **One replacement.** It leaves every piece in place when the reference waits in each
place it is spelled; elsewhere it swallows pieces. -/
private theorem replaceAll_spelling {done : List (JsString × JsString)} {entity : NamedEntity}
    (turn : entity.1 ∉ done) (items : List Piece) :
    ∃ after, replaceAll entity.1.1 entity.1.2 (spelling done items) =
        spelling (done ++ [entity.1]) after ∧
      ((Waits done entity items ∧ after = items) ∨
        (¬ Waits done entity items ∧ after.length < items.length)) := by
  match items with
  | [] =>
      refine ⟨[], by simp [replaceAll], Or.inl ⟨fun tail suffix starts => ?_, rfl⟩⟩
      rw [List.suffix_nil.mp suffix, entity_source] at starts
      simp at starts
  | piece :: rest =>
      by_cases starts : entity.1.1 <+: spelling done (piece :: rest)
      · rcases spelled_start starts with ⟨_, later, split⟩ | ⟨head, later, split, written⟩
        · -- The reference itself: replaced, and the scan goes on after it.
          obtain ⟨rfl, rfl⟩ := List.cons.inj split
          obtain ⟨after, result, outcome⟩ := replaceAll_spelling turn rest
          refine ⟨.named entity :: after, ?_, ?_⟩
          · rw [spelling_cons, spelled_of_not_mem turn, replaceAll_hit, result, spelling_cons,
              spelled_of_mem (by simp)]
          · rw [waits_cons]
            rcases outcome with ⟨waits, same⟩ | ⟨broken, shorter⟩
            · exact Or.inl ⟨⟨fun _ => rfl, waits⟩, by rw [same]⟩
            · exact Or.inr ⟨fun waits => broken waits.2, by simpa using shorter⟩
        · -- Spelled by other pieces: they become the one unit it stands for.
          have foreign : head ≠ .named entity := by
            rintro rfl
            rw [spelled_of_not_mem turn, entity_source] at written
            exact name_ne_nil entity (List.cons.inj written).2
          obtain ⟨rfl, tail⟩ : piece = head ∧ rest = entity.name.map .plain ++ later := by
            rw [List.cons_append] at split
            exact List.cons.inj split
          obtain ⟨after, result, outcome⟩ := replaceAll_spelling turn later
          obtain ⟨c, single⟩ := entity_text entity
          refine ⟨.plain c :: after, ?_, Or.inr ⟨?_, ?_⟩⟩
          · have whole : spelling done (piece :: rest) = entity.1.1 ++ spelling done later := by
              rw [tail, spelling_cons, spelling_append, spelling_plain, written, entity_source]
              rfl
            rw [whole, replaceAll_hit, result, single]
            rfl
          · exact fun waits => foreign ((waits_cons.mp waits).1 starts)
          · have bound : after.length ≤ later.length := by
              rcases outcome with ⟨_, same⟩ | ⟨_, shorter⟩
              · rw [same]
              · exact Nat.le_of_lt shorter
            have positive := List.length_pos_iff.mpr (name_ne_nil entity)
            rw [tail]
            simp only [List.length_cons, List.length_append, List.length_map]
            omega
      · obtain ⟨after, result, outcome⟩ := replaceAll_spelling turn rest
        have kept : piece.spelled (done ++ [entity.1]) = piece.spelled done := by
          cases piece with
          | plain c => rfl
          | named other =>
              have different : other.1 ≠ entity.1 := by
                intro same
                apply starts
                rw [spelling_cons, ← Subtype.ext same, spelled_of_not_mem (by rwa [same])]
                exact List.prefix_append _ _
              simp only [Piece.spelled, List.mem_append, List.mem_singleton, different, or_false]
        refine ⟨piece :: after, ?_, ?_⟩
        · rw [spelling_cons] at starts
          rw [spelling_cons, replaceAll_pass _ starts, result, spelling_cons, kept]
        · rw [waits_cons]
          rcases outcome with ⟨waits, same⟩ | ⟨broken, shorter⟩
          · exact Or.inl ⟨⟨fun found => absurd found starts, waits⟩, by rw [same]⟩
          · exact Or.inr ⟨fun waits => broken waits.2, by simpa using shorter⟩
termination_by items.length
decreasing_by all_goals simp_all; try omega

/-! ### All replacements, in the order of the table -/

/-- Both conditions name the same places: a reference spelled by other pieces is spelled
by `&` and plain units, which no replacement between changes. -/
private theorem waits_iff_settledFor {done todo : List (JsString × JsString)}
    {entity : NamedEntity} (table : done ++ entity.1 :: todo = NAMED_ENTITIES)
    (items : List Piece) : Waits done entity items ↔ SettledFor entity items := by
  have subset : ∀ other ∈ done, other ∈ NAMED_ENTITIES := by
    intro other member
    rw [← table]
    exact List.mem_append_left _ member
  constructor
  · intro waits tail suffix starts
    rcases spelled_start starts with ⟨absent, _⟩ | ⟨head, rest, rfl, written⟩
    · exact absurd entity.2 absent
    · cases head with
      | plain c =>
          apply waits _ suffix
          rw [List.cons_append, spelling_cons, spelling_append, spelling_plain, spelled_plain,
            entity_source]
          rw [spelled_plain] at written
          rw [written]
          exact ⟨spelling done rest, by simp⟩
      | named other =>
          rw [spelled_of_mem other.2] at written
          rcases ampersand_first table written with same | earlier
          · rw [Subtype.ext same]
            rfl
          · apply waits _ suffix
            rw [List.cons_append, spelling_cons, spelling_append, spelling_plain,
              spelled_of_mem earlier, written, entity_source]
            exact ⟨spelling done rest, by simp⟩
  · intro settled tail suffix starts
    rcases spelled_start starts with ⟨_, rest, rfl⟩ | ⟨head, rest, rfl, written⟩
    · rfl
    · have final : head.spelled NAMED_ENTITIES = [unit '&'] := by
        cases head with
        | plain c => exact written
        | named other =>
            by_cases replaced : other.1 ∈ done
            · rwa [spelled_of_mem replaced, ← spelled_of_mem (subset _ replaced)] at written
            · rw [spelled_of_not_mem replaced, entity_source] at written
              exact absurd (List.cons.inj written).2 (name_ne_nil other)
      apply settled _ suffix
      rw [List.cons_append, spelling_cons, spelling_append, spelling_plain, final, entity_source]
      exact ⟨spelling NAMED_ENTITIES rest, by simp⟩

private theorem foldl_replaceAll {done todo : List (JsString × JsString)}
    (table : done ++ todo = NAMED_ENTITIES) (items : List Piece) :
    ∃ after, todo.foldl (fun out entity => replaceAll entity.1 entity.2 out)
        (spelling done items) = spelling NAMED_ENTITIES after ∧
      (((∀ entity : NamedEntity, entity.1 ∈ todo → SettledFor entity items) ∧ after = items) ∨
        ((¬ ∀ entity : NamedEntity, entity.1 ∈ todo → SettledFor entity items) ∧
          after.length < items.length)) := by
  induction todo generalizing done items with
  | nil =>
      rw [List.append_nil] at table
      exact ⟨items, by rw [table]; rfl,
        Or.inl ⟨fun entity member => absurd member List.not_mem_nil, rfl⟩⟩
  | cons first todo inductionHypothesis =>
      have known : first ∈ NAMED_ENTITIES := by
        rw [← table]
        exact List.mem_append_right _ List.mem_cons_self
      have turn : first ∉ done := by
        have distinct : NAMED_ENTITIES.Nodup := by decide +kernel
        rw [← table, List.nodup_append] at distinct
        exact fun member => distinct.2.2 _ member _ List.mem_cons_self rfl
      let entity : NamedEntity := ⟨first, known⟩
      have waiting : entity.1 ∉ done := turn
      have here : done ++ entity.1 :: todo = NAMED_ENTITIES := table
      obtain ⟨middle, result, outcome⟩ := replaceAll_spelling waiting items
      rw [waits_iff_settledFor here] at outcome
      have onward : (done ++ [first]) ++ todo = NAMED_ENTITIES := by
        rw [List.append_assoc]
        exact table
      obtain ⟨after, rest, later⟩ := inductionHypothesis onward middle
      refine ⟨after, by rw [List.foldl_cons, result, rest], ?_⟩
      have split : (∀ entity : NamedEntity, entity.1 ∈ first :: todo → SettledFor entity items) ↔
          SettledFor ⟨first, known⟩ items ∧
            ∀ entity : NamedEntity, entity.1 ∈ todo → SettledFor entity items := by
        refine ⟨fun all => ⟨all _ List.mem_cons_self,
          fun entity member => all entity (List.mem_cons_of_mem _ member)⟩, ?_⟩
        rintro ⟨here, others⟩ entity member
        rcases List.mem_cons.mp member with same | member
        · rwa [show entity = ⟨first, known⟩ from Subtype.ext same]
        · exact others entity member
      rw [split]
      rcases outcome with ⟨settled, rfl⟩ | ⟨broken, shorter⟩
      · rcases later with ⟨others, same⟩ | ⟨broken, shorter⟩
        · exact Or.inl ⟨⟨settled, others⟩, same⟩
        · exact Or.inr ⟨fun all => broken all.2, shorter⟩
      · right
        refine ⟨fun all => broken all.1, ?_⟩
        rcases later with ⟨_, rfl⟩ | ⟨_, evenShorter⟩
        · exact shorter
        · exact Nat.lt_trans evenShorter shorter

/-! ### Numeric references -/

private theorem decodeNumeric_cons (c : CodeUnit) (rest : JsString) :
    decodeNumeric (c :: rest) =
      match numericAt (c :: rest) with
      | some (units, taken) => units ++ decodeNumeric (rest.drop (taken - 1))
      | none => c :: decodeNumeric rest := by
  cases rest with
  | nil => simp [decodeNumeric, numericAt]
  | cons d body =>
      rw [decodeNumeric]
      simp only [numericAt]
      by_cases opens : c = unit '&' ∧ d = unit '#'
      · rw [if_pos opens, if_pos opens]
        cases numericEntity body with
        | none => rfl
        | some found => simp
      · rw [if_neg opens, if_neg opens]

private theorem decodeNumeric_skip {word : JsString} (inert : unit '&' ∉ word)
    (rest : JsString) : decodeNumeric (word ++ rest) = word ++ decodeNumeric rest := by
  induction word with
  | nil => rfl
  | cons c word inductionHypothesis =>
      have none : numericAt (c :: (word ++ rest)) = none := by
        cases word ++ rest with
        | nil => rfl
        | cons d body =>
            rw [numericAt, if_neg]
            rintro ⟨same, _⟩
            exact inert (same ▸ List.mem_cons_self)
      rw [List.cons_append, decodeNumeric_cons, none]
      simp only
      rw [inductionHypothesis fun member => inert (List.mem_cons_of_mem _ member)]
      rfl

private theorem namedAt_starts {s : JsString} {entity : NamedEntity}
    (found : namedAt s = some entity) : entity.1.1 <+: s := by
  have holds := List.find?_some found
  exact List.isPrefixOf_iff_prefix.mp holds

/-- After the numeric pass the text is that of the pieces, every named one waiting. -/
private theorem decodeNumeric_eq (s : JsString) : decodeNumeric s = spelling [] (pieces s) := by
  fun_induction pieces s with
  | case1 => simp [decodeNumeric]
  | case2 c rest units taken found inductionHypothesis =>
      rw [decodeNumeric_cons, found, spelling_append, spelling_plain, ← inductionHypothesis]
  | case3 c rest missing entity found inductionHypothesis =>
      obtain ⟨tail, source⟩ := namedAt_starts found
      rw [entity_source, List.cons_append] at source
      obtain ⟨rfl, rfl⟩ := List.cons.inj source
      rw [decodeNumeric_cons, missing, spelling_cons, spelled_of_not_mem List.not_mem_nil,
        ← inductionHypothesis, entity_source]
      simp only
      rw [decodeNumeric_skip (ampersand_not_mem_name entity)]
      simp
  | case4 c rest missing _ inductionHypothesis =>
      rw [decodeNumeric_cons, missing, spelling_cons, spelled_plain, ← inductionHypothesis]
      rfl

/-! ### The single pass -/

/-- **One pass.** `decodeEntities` replaces each reference once, as one pass from left to
right does, exactly when no named reference is spelled by what a replacement produced. -/
theorem decodeEntities_once (input : JsString) :
    decodeEntities input = decodeOnce input ↔ Settled (pieces input) := by
  have table : [] ++ NAMED_ENTITIES = NAMED_ENTITIES := rfl
  obtain ⟨after, result, outcome⟩ := foldl_replaceAll table (pieces input)
  have decoded : decodeEntities input = spelling NAMED_ENTITIES after := by
    rw [decodeEntities, decodeNumeric_eq, result]
  rw [decoded, decodeOnce]
  rcases outcome with ⟨settled, same⟩ | ⟨broken, shorter⟩
  · exact ⟨fun _ entity => settled entity entity.2, fun _ => by rw [same]⟩
  · constructor
    · intro equal
      have lengths := congrArg List.length equal
      rw [length_spelling, length_spelling] at lengths
      omega
    · exact fun settled => absurd (fun entity _ => settled entity) broken

/-- An ampersand written as a reference, in front of `lt;`, is read twice. -/
theorem ampersand_read_twice : ¬ ∀ input, decodeEntities input = decodeOnce input := by
  intro claimed
  have once := claimed (js "&amp;lt;")
  have twice : decodeEntities (js "&amp;lt;") ≠ decodeOnce (js "&amp;lt;") := by
    decide +kernel
  exact twice once

end Assaybank.Markdown
