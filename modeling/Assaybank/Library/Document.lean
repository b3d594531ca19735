import Assaybank.Library.JsonReading

/-!
Owns JSON documents built from others: one object spread over another, and a section of a document
read over its defaults.

Contract: a section is always one its schema accepts (`sectionOf_accepts`), it depends on the
members the schema names alone (`sectionOf_congr`), and one that was written whole is read back as
it was (`sectionOf_encode`).
-/

namespace Assaybank.Library

open Assaybank.Runtime

variable {α β : Type}

/-! ### Spreading -/

/-- `{ ...base, ...changes }`: a name keeps its first place and takes its last value. -/
def spreadOver (base changes : List (JsString × Value)) : List (JsString × Value) :=
  base.map (fun member => (member.1, (member? changes member.1).getD member.2)) ++
    changes.filter fun member => !(base.map Prod.fst).contains member.1

private theorem member?_mapped (update : JsString → Value → Value)
    (members : List (JsString × Value)) (name : JsString) :
    member? (members.map fun member => (member.1, update member.1 member.2)) name =
      (member? members name).map (update name) := by
  induction members with
  | nil => rfl
  | cons member rest inductionHypothesis =>
      by_cases named : member.1 = name
      · subst named
        simp [member?]
      · have other : (member.1 == name) = false := by simpa using named
        simp only [member?, List.map_cons, List.find?_cons, other] at inductionHypothesis ⊢
        exact inductionHypothesis

private theorem member?_filtered (keep : JsString → Bool) {name : JsString}
    (kept : keep name = true) (members : List (JsString × Value)) :
    member? (members.filter fun member => keep member.1) name = member? members name := by
  induction members with
  | nil => rfl
  | cons member rest inductionHypothesis =>
      unfold member? at inductionHypothesis ⊢
      by_cases named : member.1 = name
      · have stays : keep member.1 = true := by rw [named, kept]
        simp [named, kept]
      · have other : (member.1 == name) = false := by simpa using named
        cases stays : keep member.1 with
        | false => simpa [List.filter_cons, stays, other] using inductionHypothesis
        | true => simpa [List.filter_cons, stays, other] using inductionHypothesis

private theorem member?_eq_none {members : List (JsString × Value)} {name : JsString}
    (absent : name ∉ members.map Prod.fst) : member? members name = none := by
  unfold member?
  rw [find?_absent absent]
  rfl

private theorem exists_member {members : List (JsString × Value)} {name : JsString}
    (named : name ∈ members.map Prod.fst) : ∃ value, member? members name = some value := by
  induction members with
  | nil => cases named
  | cons member rest inductionHypothesis =>
      by_cases first : member.1 = name
      · exact ⟨member.2, by simp [member?, first]⟩
      · have other : (member.1 == name) = false := by simpa using first
        have later : name ∈ rest.map Prod.fst := by
          cases List.mem_cons.mp named with
          | inl same => exact absurd same.symm first
          | inr later => exact later
        obtain ⟨value, found⟩ := inductionHypothesis later
        refine ⟨value, ?_⟩
        simpa only [member?, List.find?_cons, other] using found

/-- What a spread object holds under a name. -/
theorem member?_spreadOver (base changes : List (JsString × Value)) (name : JsString) :
    member? (spreadOver base changes) name = (member? changes name).or (member? base name) := by
  unfold spreadOver
  by_cases named : name ∈ base.map Prod.fst
  · rw [member?_append_left]
    · rw [member?_mapped fun key value => (member? changes key).getD value]
      obtain ⟨value, found⟩ := exists_member named
      rw [found]
      cases member? changes name with
      | none => rfl
      | some replaced => rfl
    · intro inside
      obtain ⟨member, kept, same⟩ := List.mem_map.mp inside
      have fresh := (List.mem_filter.mp kept).2
      rw [same] at fresh
      simp only [Bool.not_eq_true', List.contains_eq_mem, decide_eq_false_iff_not] at fresh
      exact fresh named
  · rw [member?_append_right]
    · have kept : (!(base.map Prod.fst).contains name) = true := by simpa using named
      rw [member?_filtered (fun key => !(base.map Prod.fst).contains key) kept,
        member?_eq_none named, Option.or_none]
    · rw [List.map_map]
      exact named

private theorem mem_of_member? {members : List (JsString × Value)} {name : JsString}
    {value : Value} (found : member? members name = some value) : (name, value) ∈ members := by
  obtain ⟨member, first, same⟩ := Option.map_eq_some_iff.mp found
  have named : member.1 = name := by simpa using List.find?_some first
  have inside := List.mem_of_find?_eq_some first
  rw [← named, ← same]
  exact inside

/-- A member of a spread object is a member of one of the two. -/
theorem mem_spreadOver {base changes : List (JsString × Value)} {member : JsString × Value}
    (inside : member ∈ spreadOver base changes) : member ∈ base ∨ member ∈ changes := by
  rcases List.mem_append.mp inside with kept | added
  · obtain ⟨before, first, same⟩ := List.mem_map.mp kept
    cases found : member? changes before.1 with
    | none =>
        rw [found] at same
        rw [← same]
        exact .inl first
    | some value =>
        rw [found] at same
        rw [← same]
        exact .inr (mem_of_member? found)
  · exact .inr (List.mem_filter.mp added).1

/-- What is spread over an object is all there. -/
theorem mem_spreadOver_changes {base changes : List (JsString × Value)}
    (distinct : (changes.map Prod.fst).Nodup) {member : JsString × Value} (inside : member ∈ changes) :
    member ∈ spreadOver base changes := by
  have found : member? changes member.1 = some member.2 := by
    obtain ⟨value, found⟩ := exists_member (List.mem_map_of_mem (f := Prod.fst) inside)
    have same := List.inj_on_of_nodup_map distinct (mem_of_member? found) inside rfl
    rw [found, ← same]
  by_cases named : member.1 ∈ base.map Prod.fst
  · obtain ⟨before, first, same⟩ := List.mem_map.mp named
    refine List.mem_append_left _ (List.mem_map.mpr ⟨before, first, ?_⟩)
    rw [same, found]
    rfl
  · refine List.mem_append_right _ (List.mem_filter.mpr ⟨inside, ?_⟩)
    simpa using named

theorem plainMembers_iff {members : List (JsString × Value)} :
    plainMembers members = true ↔ ∀ member ∈ members, isPlain member.2 = true := by
  induction members with
  | nil => simp [plainMembers]
  | cons member rest inductionHypothesis => simp [plainMembers, inductionHypothesis]

/-- One plain object spread over another is plain. -/
theorem isPlain_spreadOver {base changes : List (JsString × Value)}
    (first : isPlain (.object base) = true) (second : isPlain (.object changes) = true) :
    isPlain (.object (spreadOver base changes)) = true := by
  simp only [isPlain, Bool.and_eq_true, decide_eq_true_eq] at first second ⊢
  constructor
  · unfold spreadOver
    rw [List.map_append, List.map_map]
    refine List.Nodup.append first.1 (second.1.sublist (List.filter_sublist.map _)) ?_
    intro name before later
    obtain ⟨member, kept, same⟩ := List.mem_map.mp later
    have fresh := (List.mem_filter.mp kept).2
    rw [same] at fresh
    simp only [Bool.not_eq_true', List.contains_eq_mem, decide_eq_false_iff_not] at fresh
    exact fresh before
  · rw [plainMembers_iff]
    intro member inside
    cases mem_spreadOver inside with
    | inl mine => exact plainMembers_iff.mp first.2 member mine
    | inr mine => exact plainMembers_iff.mp second.2 member mine

/-- A rule on every string holds of a spread object when it holds of both, and it holds of what is
spread when it holds of the whole. -/
theorem everyMember_spreadOver {text : JsString → Bool} {base changes : List (JsString × Value)}
    (distinct : (changes.map Prod.fst).Nodup) (first : everyMember text base = true) :
    everyMember text (spreadOver base changes) = everyMember text changes := by
  rw [Bool.eq_iff_iff, everyMember_iff, everyMember_iff]
  constructor
  · intro whole member inside
    exact whole member (mem_spreadOver_changes distinct inside)
  · intro second member inside
    cases mem_spreadOver inside with
    | inl mine => exact everyMember_iff.mp first member mine
    | inr mine => exact second member mine

/-! ### Sections -/

/-- `isRecord(value) ? value : {}`. -/
def recordMembers : Value → List (JsString × Value)
  | .object members => members
  | _ => []

/-- One section of a stored document over its defaults. -/
def sectionOf (schema : Schema α) (value : Option Value) (fallback : α) : α :=
  (schema.safeParse (.object (spreadOver (recordMembers (schema.encode fallback))
    (value.elim [] recordMembers)))).getD fallback

/-- A section is one its schema accepts, whatever is stored. -/
theorem sectionOf_accepts {schema : Schema α} {fallback : α} (valid : schema.Accepts fallback)
    (value : Option Value) : schema.Accepts (sectionOf schema value fallback) := by
  unfold sectionOf
  cases read : schema.safeParse (.object (spreadOver (recordMembers (schema.encode fallback))
      (value.elim [] recordMembers))) with
  | none => exact valid
  | some a => exact Schema.accepts_of_parse (Schema.safeParse_eq_some.mp read)

theorem accepts_looseObject {fields : Fields α} {shape : α ≃ β} {b : β} :
    (Schema.looseObject fields shape).Accepts b ↔ fields.Accepts (shape.symm b) := by
  show (fields.parse (member? (fields.encode (shape.symm b)))).map shape = _ ↔ _
  rw [Parsed.map_eq_accepted]
  constructor
  · intro accepted
    obtain ⟨a, read, same⟩ := accepted
    rw [← same, shape.symm_apply_apply] at read ⊢
    exact read
  · intro read
    exact ⟨shape.symm b, read, shape.apply_symm_apply b⟩

section LooseObjects

variable {fields : Fields α} {shape : α ≃ β} {fallback : β}

/-- What is stored beside the members a section names is not read. -/
theorem sectionOf_congr {value other : Option Value}
    (same : ∀ key ∈ fields.keys,
      member? (value.elim [] recordMembers) key = member? (other.elim [] recordMembers) key) :
    sectionOf (Schema.looseObject fields shape) value fallback =
      sectionOf (Schema.looseObject fields shape) other fallback := by
  have alike : ∀ key ∈ fields.keys,
      member? (spreadOver (fields.encode (shape.symm fallback)) (value.elim [] recordMembers)) key =
        member? (spreadOver (fields.encode (shape.symm fallback))
          (other.elim [] recordMembers)) key := fun key inside => by
    rw [member?_spreadOver, member?_spreadOver, same key inside]
  have parsed : (Schema.looseObject fields shape).parse _ = _ :=
    Schema.looseObject_parse_congr alike
  have read : (Schema.looseObject fields shape).safeParse
      (.object (spreadOver (fields.encode (shape.symm fallback)) (value.elim [] recordMembers))) =
        (Schema.looseObject fields shape).safeParse
          (.object (spreadOver (fields.encode (shape.symm fallback))
            (other.elim [] recordMembers))) := by
    unfold Schema.safeParse
    rw [parsed]
  show ((Schema.looseObject fields shape).safeParse
    (.object (spreadOver (fields.encode (shape.symm fallback))
      (value.elim [] recordMembers)))).getD fallback = _
  rw [read]
  rfl

/-- A section that was written whole is read back as it was. -/
theorem sectionOf_encode {b : β} (valid : (Schema.looseObject fields shape).Accepts b)
    (whole : ∀ key ∈ fields.keys, (member? (fields.encode (shape.symm b)) key).isSome = true) :
    sectionOf (Schema.looseObject fields shape)
      (some ((Schema.looseObject fields shape).encode b)) fallback = b := by
  have parsed : (Schema.looseObject fields shape).parse
      (.object (spreadOver (fields.encode (shape.symm fallback)) (fields.encode (shape.symm b)))) =
        .accepted b := by
    rw [← valid]
    refine Schema.looseObject_parse_congr fun key inside => ?_
    rw [member?_spreadOver]
    obtain ⟨value, found⟩ := Option.isSome_iff_exists.mp (whole key inside)
    rw [found, Option.some_or]
  have read : (Schema.looseObject fields shape).safeParse
      (.object (spreadOver (fields.encode (shape.symm fallback)) (fields.encode (shape.symm b)))) =
        some b := Schema.safeParse_eq_some.mpr parsed
  show ((Schema.looseObject fields shape).safeParse
    (.object (spreadOver (fields.encode (shape.symm fallback)) (fields.encode (shape.symm b))))).getD
      fallback = b
  rw [read]
  rfl

end LooseObjects

end Assaybank.Library
