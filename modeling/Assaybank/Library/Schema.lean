import Assaybank.Runtime.Decimal
import Assaybank.Runtime.Text
import Mathlib.Logic.Equiv.Defs

/-!
Owns validation of parsed JSON by composition: a schema reads a value into a typed one and
writes it back, collecting every issue on the way.

Contract: what a schema accepts, it accepts again after writing it (`Schema.stable`), and
what it accepts of a composed value is what its parts accept of theirs (the `accepts_*`
lemmas). A structural issue loses the value, any other issue keeps it, so that a later
refinement still runs.

It does not own the texts of the validator's own messages. An issue carries the rule it
breaks; only texts a schema supplies are texts here.
-/

namespace Assaybank.Library

open Assaybank.Runtime

/-- A value as `JSON.parse` gives it, or as code builds it to be checked. An object lists its
members in order; the first of a name is the one read. -/
inductive Value where
  | null
  | bool (b : Bool)
  | number (n : Decimal)
  /-- NaN or an infinity. -/
  | nonFinite
  | string (s : JsString)
  | array (items : List Value)
  | object (members : List (JsString × Value))

/-- The member of a name. -/
def member? (members : List (JsString × Value)) (name : JsString) : Option Value :=
  (members.find? fun member => member.1 == name).map Prod.snd

theorem find?_absent {members : List (JsString × Value)} {name : JsString}
    (absent : name ∉ members.map Prod.fst) : members.find? (fun member => member.1 == name) = none := by
  rw [List.find?_eq_none]
  intro pair inside named
  exact absent (List.mem_map.mpr ⟨pair, inside, by simpa using named⟩)

theorem member?_append_left {left right : List (JsString × Value)} {name : JsString}
    (absent : name ∉ right.map Prod.fst) : member? (left ++ right) name = member? left name := by
  unfold member?
  rw [List.find?_append, find?_absent absent, Option.or_none]

theorem member?_append_right {left right : List (JsString × Value)} {name : JsString}
    (absent : name ∉ left.map Prod.fst) : member? (left ++ right) name = member? right name := by
  unfold member?
  rw [List.find?_append, find?_absent absent, Option.none_or]

theorem member?_single (key : JsString) (value : Value) :
    member? [(key, value)] key = some value := by
  simp [member?]

inductive Segment where
  | key (name : JsString)
  | index (position : Nat)
deriving DecidableEq

/-- The rule an issue breaks. -/
inductive Rule where
  | invalidType
  | invalidValue
  | unrecognizedKeys
  | tooSmall
  | tooBig
  | invalidFormat (message : JsString)
  | custom (message : JsString)
deriving DecidableEq

structure Issue where
  path : List Segment
  rule : Rule
deriving DecidableEq

/-- The same issue, seen from the value that holds this one. -/
def Issue.within (segment : Segment) (issue : Issue) : Issue :=
  { issue with path := segment :: issue.path }

/-- What reading a value gives: the typed value unless an issue was structural, and every issue. -/
structure Parsed (α : Type) where
  value : Option α
  issues : List Issue

namespace Parsed

variable {α β : Type}

def accepted (a : α) : Parsed α := ⟨some a, []⟩

def refused (rule : Rule) : Parsed α := ⟨none, [⟨[], rule⟩]⟩

def map (f : α → β) (parsed : Parsed α) : Parsed β := ⟨parsed.value.map f, parsed.issues⟩

def within (segment : Segment) (parsed : Parsed α) : Parsed α :=
  ⟨parsed.value, parsed.issues.map (Issue.within segment)⟩

def both (left : Parsed α) (right : Parsed β) : Parsed (α × β) :=
  ⟨left.value.bind fun a => right.value.map fun b => (a, b), left.issues ++ right.issues⟩

theorem within_eq_accepted {segment : Segment} {parsed : Parsed α} {a : α} :
    parsed.within segment = accepted a ↔ parsed = accepted a := by
  rcases parsed with ⟨value, issues⟩
  simp [within, accepted]

theorem map_eq_accepted {f : α → β} {parsed : Parsed α} {b : β} :
    parsed.map f = accepted b ↔ ∃ a, parsed = accepted a ∧ f a = b := by
  rcases parsed with ⟨value, issues⟩
  simp only [map, accepted, mk.injEq, Option.map_eq_some_iff]
  constructor
  · rintro ⟨⟨a, rfl, mapped⟩, rfl⟩
    exact ⟨a, ⟨rfl, rfl⟩, mapped⟩
  · rintro ⟨a, ⟨rfl, rfl⟩, mapped⟩
    exact ⟨⟨a, rfl, mapped⟩, rfl⟩

theorem both_eq_accepted {left : Parsed α} {right : Parsed β} {pair : α × β} :
    left.both right = accepted pair ↔ left = accepted pair.1 ∧ right = accepted pair.2 := by
  rcases left with ⟨leftValue, leftIssues⟩
  rcases right with ⟨rightValue, rightIssues⟩
  rcases pair with ⟨a, b⟩
  simp only [both, accepted, mk.injEq, List.append_eq_nil_iff, Option.bind_eq_some_iff,
    Option.map_eq_some_iff, Prod.mk.injEq]
  constructor
  · rintro ⟨⟨_, rfl, _, rfl, rfl, rfl⟩, rfl, rfl⟩
    exact ⟨⟨rfl, rfl⟩, rfl, rfl⟩
  · rintro ⟨⟨rfl, rfl⟩, rfl, rfl⟩
    exact ⟨⟨a, rfl, b, rfl, rfl, rfl⟩, rfl, rfl⟩

end Parsed

/-- A rule on a typed value, with what it says when the value breaks it. -/
structure Check (α : Type) where
  holds : α → Bool
  rule : Rule

/-- The issues of a value against a list of rules, in order. -/
def runChecks {α : Type} (checks : List (Check α)) (a : α) : List Issue :=
  (checks.filter fun check => !check.holds a).map fun check => ⟨[], check.rule⟩

theorem runChecks_eq_nil {α : Type} {checks : List (Check α)} {a : α} :
    runChecks checks a = [] ↔ ∀ check ∈ checks, check.holds a = true := by
  simp [runChecks]

/-- A reader of values with its writer. -/
structure Schema (α : Type) where
  parse : Value → Parsed α
  encode : α → Value
  stable : ∀ {value a}, parse value = .accepted a → parse (encode a) = .accepted a

namespace Schema

variable {α β : Type}

/-- The typed value when nothing was wrong with what was read. -/
def safeParse (schema : Schema α) (value : Value) : Option α :=
  match schema.parse value with
  | ⟨some a, []⟩ => some a
  | _ => none

theorem safeParse_eq_some {schema : Schema α} {value : Value} {a : α} :
    schema.safeParse value = some a ↔ schema.parse value = .accepted a := by
  unfold safeParse
  rcases schema.parse value with ⟨_ | b, _ | ⟨issue, issues⟩⟩ <;> simp [Parsed.accepted]

/-- The typed values a schema accepts. -/
def Accepts (schema : Schema α) (a : α) : Prop := schema.parse (schema.encode a) = .accepted a

theorem accepts_of_parse {schema : Schema α} {value : Value} {a : α}
    (parsed : schema.parse value = .accepted a) : schema.Accepts a := schema.stable parsed

/-! ### Scalars -/

/-- A value of one JSON type, under a list of rules. -/
def scalar (decode : Value → Option α) (encode : α → Value)
    (decodes : ∀ a, decode (encode a) = some a) (checks : List (Check α)) : Schema α where
  parse value :=
    match decode value with
    | none => .refused .invalidType
    | some a => ⟨some a, runChecks checks a⟩
  encode := encode
  stable {value a} parsed := by
    simp only [decodes]
    split at parsed
    · simp [Parsed.refused, Parsed.accepted] at parsed
    · simp only [Parsed.accepted, Parsed.mk.injEq, Option.some.injEq] at parsed ⊢
      rw [← parsed.1]
      exact ⟨trivial, parsed.2⟩

theorem accepts_scalar {decode : Value → Option α} {encode : α → Value}
    {decodes : ∀ a, decode (encode a) = some a} {checks : List (Check α)} {a : α} :
    (scalar decode encode decodes checks).Accepts a ↔ ∀ check ∈ checks, check.holds a = true := by
  unfold Accepts scalar
  simp only [decodes, Parsed.accepted, Parsed.mk.injEq, true_and]
  exact runChecks_eq_nil

def string (checks : List (Check JsString)) : Schema JsString :=
  scalar (fun | .string s => some s | _ => none) .string (fun _ => rfl) checks

def number (checks : List (Check Decimal)) : Schema Decimal :=
  scalar (fun | .number n => some n | _ => none) .number (fun _ => rfl) checks

def integer (checks : List (Check Int)) : Schema Int :=
  scalar (fun | .number n => n.toInt? | _ => none) (fun n => .number (.ofInt n)) (by simp) checks

def bool : Schema Bool := scalar (fun | .bool b => some b | _ => none) .bool (fun _ => rfl) []

theorem accepts_bool (b : Bool) : bool.Accepts b := rfl

theorem accepts_anyString (s : JsString) : (string []).Accepts s := rfl

/-- One of a closed list of names. -/
def enumeration (all : List α) (name : α → JsString)
    (decodes : ∀ a, all.find? (fun b => name b == name a) = some a) : Schema α :=
  scalar (fun | .string s => all.find? fun b => name b == s | _ => none) (fun a => .string (name a))
    decodes []

/-! ### Containers -/

def parseNullable (schema : Schema α) : Value → Parsed (Option α)
  | .null => .accepted none
  | value => (schema.parse value).map some

theorem parseNullable_of_ne_null {schema : Schema α} {value : Value} (notNull : value ≠ .null) :
    parseNullable schema value = (schema.parse value).map some := by
  cases value with
  | null => exact absurd rfl notNull
  | _ => rfl

private theorem parseNullable_some {schema : Schema α} {value : Value} {a : α} :
    parseNullable schema value = .accepted (some a) ↔
      value ≠ .null ∧ schema.parse value = .accepted a := by
  by_cases isNull : value = .null
  · subst isNull
    simp [parseNullable, Parsed.accepted]
  · rw [parseNullable_of_ne_null isNull, Parsed.map_eq_accepted]
    simp [isNull]

def nullable (schema : Schema α) (notNull : ∀ a, schema.encode a ≠ .null := by nofun) :
    Schema (Option α) where
  parse := parseNullable schema
  encode a := a.elim .null schema.encode
  stable {value a} parsed := by
    cases a with
    | none => rfl
    | some a =>
        obtain ⟨_, read⟩ := parseNullable_some.mp parsed
        exact parseNullable_some.mpr ⟨notNull a, schema.stable read⟩

theorem accepts_nullable {schema : Schema α} {notNull : ∀ a, schema.encode a ≠ .null}
    {a : Option α} : (nullable schema notNull).Accepts a ↔ ∀ b, a = some b → schema.Accepts b := by
  cases a with
  | none => simp [Accepts, nullable, parseNullable]
  | some a =>
      simp only [Option.some.injEq, forall_eq']
      exact parseNullable_some.trans (and_iff_right (notNull a))

/-- Reads the elements of an array, from position `index` on. -/
def parseElements (schema : Schema α) : Nat → List Value → Parsed (List α)
  | _, [] => .accepted []
  | index, value :: rest =>
      (((schema.parse value).within (.index index)).both (parseElements schema (index + 1) rest)).map
        fun pair => pair.1 :: pair.2

theorem parseElements_eq_accepted {schema : Schema α} {index : Nat} {values : List Value}
    {items : List α} : parseElements schema index values = .accepted items ↔
      List.Forall₂ (fun value a => schema.parse value = .accepted a) values items := by
  induction values generalizing index items with
  | nil =>
      cases items <;> simp [parseElements, Parsed.accepted]
  | cons value rest inductionHypothesis =>
      simp only [parseElements, Parsed.map_eq_accepted, Parsed.both_eq_accepted,
        Parsed.within_eq_accepted, inductionHypothesis]
      constructor
      · rintro ⟨⟨a, others⟩, ⟨first, later⟩, rfl⟩
        exact .cons first later
      · intro read
        cases read with
        | cons first later => exact ⟨(_, _), ⟨first, later⟩, rfl⟩

private theorem exists_read {read : Value → α → Prop} {values : List Value} {items : List α}
    (elements : List.Forall₂ read values items) {a : α} (inside : a ∈ items) :
    ∃ value, read value a := by
  induction elements with
  | nil => cases inside
  | cons first _ inductionHypothesis =>
      rcases List.mem_cons.mp inside with rfl | later
      · exact ⟨_, first⟩
      · exact inductionHypothesis later

/-- A list, with rules on its length. -/
def array (schema : Schema α) (lengths : List (Check Nat)) : Schema (List α) where
  parse
    | .array values =>
        let elements := parseElements schema 0 values
        ⟨elements.value, elements.issues ++ runChecks lengths values.length⟩
    | _ => .refused .invalidType
  encode items := .array (items.map schema.encode)
  stable {value items} parsed := by
    cases value with
    | array values =>
        simp only [Parsed.accepted, Parsed.mk.injEq, List.append_eq_nil_iff] at parsed ⊢
        have read : parseElements schema 0 values = .accepted items := by
          rw [Parsed.accepted, ← parsed.1, ← parsed.2.1]
        have elements := parseElements_eq_accepted.mp read
        have again : parseElements schema 0 (items.map schema.encode) = .accepted items := by
          rw [parseElements_eq_accepted, List.forall₂_map_left_iff, List.forall₂_same]
          intro a inside
          obtain ⟨origin, read⟩ := exists_read elements inside
          exact schema.stable read
        have same := elements.length_eq
        simp only [again, Parsed.accepted, List.length_map, ← same, true_and]
        exact parsed.2.2
    | _ => simp [Parsed.refused, Parsed.accepted] at parsed

theorem accepts_array {schema : Schema α} {lengths : List (Check Nat)} {items : List α} :
    (array schema lengths).Accepts items ↔
      (∀ a ∈ items, schema.Accepts a) ∧ ∀ check ∈ lengths, check.holds items.length = true := by
  have elements : parseElements schema 0 (items.map schema.encode) = .accepted items ↔
      ∀ a ∈ items, schema.Accepts a := by
    rw [parseElements_eq_accepted, List.forall₂_map_left_iff, List.forall₂_same]
    rfl
  rw [← elements, ← runChecks_eq_nil]
  unfold Accepts array
  simp only [List.length_map]
  generalize parseElements schema 0 (items.map schema.encode) = read
  rcases read with ⟨value, issues⟩
  simp [Parsed.accepted, and_assoc]

/-- Reads the members of a record, skipping the name a JavaScript object cannot hold as its own. -/
def parseRecord : List (JsString × Value) → Parsed (List (JsString × JsString))
  | [] => .accepted []
  | (name, value) :: rest =>
      if name = js "__proto__" then parseRecord rest
      else ((((string []).parse value).within (.key name)).both (parseRecord rest)).map
        fun pair => (name, pair.1) :: pair.2

/-- Writes the members of a record. -/
def encodeRecord (entries : List (JsString × JsString)) : List (JsString × Value) :=
  entries.map fun entry => (entry.1, .string entry.2)

private theorem parse_string {value : Value} {text : JsString} :
    (string []).parse value = .accepted text ↔ value = .string text := by
  cases value with
  | string other => simp [string, scalar, runChecks, Parsed.accepted]
  | _ => simp [string, scalar, Parsed.refused, Parsed.accepted]

theorem parseRecord_encodeRecord (entries : List (JsString × JsString)) :
    parseRecord (encodeRecord entries) =
      .accepted (entries.filter fun entry => entry.1 ≠ js "__proto__") := by
  induction entries with
  | nil => rfl
  | cons entry rest inductionHypothesis =>
      simp only [encodeRecord, List.map_cons, parseRecord] at inductionHypothesis ⊢
      split
      · rename_i proto
        rw [List.filter_cons_of_neg (by simp [proto])]
        exact inductionHypothesis
      · rename_i plain
        rw [List.filter_cons_of_pos (by simpa using plain), Parsed.map_eq_accepted]
        refine ⟨(entry.2, _), Parsed.both_eq_accepted.mpr ⟨?_, inductionHypothesis⟩, rfl⟩
        exact Parsed.within_eq_accepted.mpr (parse_string.mpr rfl)

private theorem parseRecord_names {members : List (JsString × Value)}
    {entries : List (JsString × JsString)} (read : parseRecord members = .accepted entries) :
    ∀ entry ∈ entries, entry.1 ≠ js "__proto__" := by
  induction members generalizing entries with
  | nil =>
      simp only [parseRecord, Parsed.accepted, Parsed.mk.injEq, Option.some.injEq] at read
      simp [← read.1]
  | cons member rest inductionHypothesis =>
      simp only [parseRecord] at read
      split at read
      · exact inductionHypothesis read
      · rename_i plain
        obtain ⟨pair, both, rfl⟩ := Parsed.map_eq_accepted.mp read
        intro entry inside
        rcases List.mem_cons.mp inside with rfl | later
        · exact plain
        · exact inductionHypothesis (Parsed.both_eq_accepted.mp both).2 entry later

private theorem parseRecord_again {entries : List (JsString × JsString)} :
    parseRecord (encodeRecord entries) = .accepted entries ↔
      ∀ entry ∈ entries, entry.1 ≠ js "__proto__" := by
  rw [parseRecord_encodeRecord]
  simp only [Parsed.accepted, Parsed.mk.injEq, Option.some.injEq, and_true,
    List.filter_eq_self, decide_eq_true_eq]

/-- An object of strings. -/
def record : Schema (List (JsString × JsString)) where
  parse
    | .object members => parseRecord members
    | _ => .refused .invalidType
  encode entries := .object (encodeRecord entries)
  stable {value entries} parsed := by
    cases value with
    | object members => exact parseRecord_again.mpr (parseRecord_names parsed)
    | _ => simp [Parsed.refused, Parsed.accepted] at parsed

theorem accepts_record {entries : List (JsString × JsString)} :
    record.Accepts entries ↔ ∀ entry ∈ entries, entry.1 ≠ js "__proto__" := parseRecord_again

end Schema

/-! ### Objects -/

/-- Named members of an object, read together. -/
structure Fields (α : Type) where
  keys : List JsString
  parse : (JsString → Option Value) → Parsed α
  encode : α → List (JsString × Value)
  keys_encode : ∀ a, (encode a).map Prod.fst ⊆ keys
  parse_congr : ∀ {get other}, (∀ key ∈ keys, get key = other key) → parse get = parse other
  stable : ∀ {get a}, parse get = .accepted a → parse (member? (encode a)) = .accepted a

namespace Fields

variable {α β : Type}

def Accepts (fields : Fields α) (a : α) : Prop :=
  fields.parse (member? (fields.encode a)) = .accepted a

/-- One required member. -/
def field (key : JsString) (schema : Schema α) : Fields α where
  keys := [key]
  parse get :=
    match get key with
    | none => (Parsed.refused .invalidType).within (.key key)
    | some value => (schema.parse value).within (.key key)
  encode a := [(key, schema.encode a)]
  keys_encode _ := List.Subset.refl _
  parse_congr same := by simp only [same key (List.mem_singleton_self key)]
  stable {get a} parsed := by
    simp only [member?_single, Parsed.within_eq_accepted]
    split at parsed
    · simp [Parsed.within, Parsed.refused, Parsed.accepted] at parsed
    · exact schema.stable (Parsed.within_eq_accepted.mp parsed)

theorem accepts_field {key : JsString} {schema : Schema α} {a : α} :
    (field key schema).Accepts a ↔ schema.Accepts a := by
  unfold Accepts field Schema.Accepts
  simp only [member?_single, Parsed.within_eq_accepted]

/-- A member that may be absent. -/
def optional (key : JsString) (schema : Schema α) : Fields (Option α) where
  keys := [key]
  parse get :=
    match get key with
    | none => .accepted none
    | some value => ((schema.parse value).within (.key key)).map some
  encode a := a.elim [] fun a => [(key, schema.encode a)]
  keys_encode a := by cases a <;> simp
  parse_congr same := by simp only [same key (List.mem_singleton_self key)]
  stable {get a} parsed := by
    cases a with
    | none => rfl
    | some a =>
        simp only [Option.elim_some, member?_single]
        split at parsed
        · simp [Parsed.accepted] at parsed
        · obtain ⟨b, read, same⟩ := Parsed.map_eq_accepted.mp parsed
          cases same
          have again := schema.stable (Parsed.within_eq_accepted.mp read)
          exact Parsed.map_eq_accepted.mpr ⟨_, Parsed.within_eq_accepted.mpr again, rfl⟩

theorem accepts_optional {key : JsString} {schema : Schema α} {a : Option α} :
    (optional key schema).Accepts a ↔ ∀ b, a = some b → schema.Accepts b := by
  cases a with
  | none => simp [Accepts, optional, member?, Parsed.accepted]
  | some a =>
      simp only [Accepts, optional, Option.elim_some, member?_single, Option.some.injEq, forall_eq']
      constructor
      · intro accepted
        obtain ⟨b, read, same⟩ := Parsed.map_eq_accepted.mp accepted
        cases same
        exact Parsed.within_eq_accepted.mp read
      · intro accepted
        exact Parsed.map_eq_accepted.mpr ⟨a, Parsed.within_eq_accepted.mpr accepted, rfl⟩

/-- A member that is `absent` when it is not named. -/
def withDefault (key : JsString) (schema : Schema α) (absent : α)
    (valid : schema.Accepts absent) : Fields α where
  keys := [key]
  parse get :=
    match get key with
    | none => .accepted absent
    | some value => (schema.parse value).within (.key key)
  encode a := [(key, schema.encode a)]
  keys_encode _ := List.Subset.refl _
  parse_congr same := by simp only [same key (List.mem_singleton_self key)]
  stable {get a} parsed := by
    simp only [member?_single, Parsed.within_eq_accepted]
    split at parsed
    · simp only [Parsed.accepted, Parsed.mk.injEq, Option.some.injEq, and_true] at parsed
      rw [← parsed]
      exact valid
    · exact schema.stable (Parsed.within_eq_accepted.mp parsed)

theorem accepts_withDefault {key : JsString} {schema : Schema α} {absent a : α}
    {valid : schema.Accepts absent} :
    (withDefault key schema absent valid).Accepts a ↔ schema.Accepts a := by
  unfold Accepts withDefault Schema.Accepts
  simp only [member?_single, Parsed.within_eq_accepted]

/-- Two groups of members with different names. -/
def both (left : Fields α) (right : Fields β)
    (disjoint : ∀ key ∈ right.keys, key ∉ left.keys := by decide) : Fields (α × β) where
  keys := left.keys ++ right.keys
  parse get := (left.parse get).both (right.parse get)
  encode pair := left.encode pair.1 ++ right.encode pair.2
  keys_encode pair := by
    rw [List.map_append]
    exact List.append_subset.mpr ⟨List.subset_append_of_subset_left _ (left.keys_encode _),
      List.subset_append_of_subset_right _ (right.keys_encode _)⟩
  parse_congr same := by
    rw [left.parse_congr fun key inside => same key (List.mem_append_left _ inside),
      right.parse_congr fun key inside => same key (List.mem_append_right _ inside)]
  stable {get pair} parsed := by
    obtain ⟨first, second⟩ := Parsed.both_eq_accepted.mp parsed
    refine Parsed.both_eq_accepted.mpr ⟨?_, ?_⟩
    · rw [left.parse_congr fun key inside => member?_append_left fun named =>
        disjoint key (right.keys_encode _ named) inside]
      exact left.stable first
    · rw [right.parse_congr fun key inside => member?_append_right fun named =>
        disjoint key inside (left.keys_encode _ named)]
      exact right.stable second

theorem accepts_both {left : Fields α} {right : Fields β}
    {disjoint : ∀ key ∈ right.keys, key ∉ left.keys} {pair : α × β} :
    (both left right disjoint).Accepts pair ↔ left.Accepts pair.1 ∧ right.Accepts pair.2 := by
  unfold Accepts both
  simp only [Parsed.both_eq_accepted]
  rw [left.parse_congr fun key inside => member?_append_left fun named =>
      disjoint key (right.keys_encode _ named) inside,
    right.parse_congr fun key inside => member?_append_right fun named =>
      disjoint key inside (left.keys_encode _ named)]

end Fields

namespace Schema

variable {α β : Type}

private theorem fields_known (fields : Fields α) (a : α) :
    ((fields.encode a).all fun member => fields.keys.contains member.1) = true := by
  rw [List.all_eq_true]
  intro member inside
  have named := fields.keys_encode a (List.mem_map_of_mem inside)
  simpa using named

/-- An object with exactly these members, in the shape of a record. -/
def strictObject (fields : Fields α) (shape : α ≃ β) : Schema β where
  parse
    | .object members =>
        let read := fields.parse (member? members)
        if members.all fun member => fields.keys.contains member.1 then read.map shape
        else ⟨none, read.issues ++ [⟨[], .unrecognizedKeys⟩]⟩
    | _ => .refused .invalidType
  encode b := .object (fields.encode (shape.symm b))
  stable {value b} parsed := by
    cases value with
    | object members =>
        simp only at parsed
        split at parsed
        · obtain ⟨a, read, rfl⟩ := Parsed.map_eq_accepted.mp parsed
          simp only [shape.symm_apply_apply, fields_known, if_true]
          exact Parsed.map_eq_accepted.mpr ⟨a, fields.stable read, rfl⟩
        · simp [Parsed.accepted] at parsed
    | _ => simp [Parsed.refused, Parsed.accepted] at parsed

theorem accepts_strictObject {fields : Fields α} {shape : α ≃ β} {b : β} :
    (strictObject fields shape).Accepts b ↔ fields.Accepts (shape.symm b) := by
  unfold Accepts strictObject Fields.Accepts
  simp only [fields_known, if_true, Parsed.map_eq_accepted]
  constructor
  · rintro ⟨a, read, rfl⟩
    simpa using read
  · intro read
    exact ⟨shape.symm b, read, shape.apply_symm_apply b⟩

theorem strictObject_unrecognized {fields : Fields α} {shape : α ≃ β}
    {members : List (JsString × Value)} {member : JsString × Value} (inside : member ∈ members)
    (unknown : member.1 ∉ fields.keys) (b : β) :
    (strictObject fields shape).parse (.object members) ≠ .accepted b := by
  have refused : (members.all fun member => fields.keys.contains member.1) ≠ true := by
    intro known
    have named := List.all_eq_true.mp known member inside
    exact unknown (by simpa using named)
  show (if members.all fun member => fields.keys.contains member.1 then _ else _) ≠ _
  rw [if_neg refused]
  simp [Parsed.accepted]

/-- An object with at least these members, in the shape of a record. Others are dropped. -/
def looseObject (fields : Fields α) (shape : α ≃ β) : Schema β where
  parse
    | .object members => (fields.parse (member? members)).map shape
    | _ => .refused .invalidType
  encode b := .object (fields.encode (shape.symm b))
  stable {value b} parsed := by
    cases value with
    | object members =>
        obtain ⟨a, read, rfl⟩ := Parsed.map_eq_accepted.mp parsed
        rw [shape.symm_apply_apply]
        exact Parsed.map_eq_accepted.mpr ⟨a, fields.stable read, rfl⟩
    | _ => simp [Parsed.refused, Parsed.accepted] at parsed

/-- What a loose object reads depends on the members it names alone. -/
theorem looseObject_parse_congr {fields : Fields α} {shape : α ≃ β}
    {members others : List (JsString × Value)}
    (same : ∀ key ∈ fields.keys, member? members key = member? others key) :
    (looseObject fields shape).parse (.object members) =
      (looseObject fields shape).parse (.object others) := by
  show (fields.parse (member? members)).map shape = (fields.parse (member? others)).map shape
  rw [fields.parse_congr same]

/-- Rules on a whole value, run when nothing structural was wrong with it. -/
def refine (schema : Schema α) (rules : α → List Issue) : Schema α where
  parse value :=
    let read := schema.parse value
    ⟨read.value, read.issues ++ read.value.elim [] rules⟩
  encode := schema.encode
  stable {value a} parsed := by
    simp only [Parsed.accepted, Parsed.mk.injEq, List.append_eq_nil_iff] at parsed
    have read : schema.parse value = .accepted a := by
      rw [Parsed.accepted, ← parsed.1, ← parsed.2.1]
    have again := schema.stable read
    simp only [again, Parsed.accepted, Option.elim_some, List.nil_append]
    simpa [read, Parsed.accepted] using parsed.2.2

theorem accepts_refine {schema : Schema α} {rules : α → List Issue} {a : α} :
    (schema.refine rules).Accepts a ↔ schema.Accepts a ∧ rules a = [] := by
  unfold Accepts refine
  simp only
  generalize schema.parse (schema.encode a) = read
  rcases read with ⟨value, issues⟩
  simp only [Parsed.accepted, Parsed.mk.injEq, List.append_eq_nil_iff]
  constructor
  · rintro ⟨rfl, rfl, broken⟩
    exact ⟨⟨rfl, rfl⟩, broken⟩
  · rintro ⟨⟨rfl, rfl⟩, broken⟩
    exact ⟨rfl, rfl, broken⟩

end Schema

end Assaybank.Library
