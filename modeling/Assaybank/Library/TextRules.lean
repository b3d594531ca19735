import Assaybank.Library.Schema

/-!
Owns rules that hold of every string in a value, beside what a schema accepts of it.

Contract: what fits a composed value is what fits its parts (the `fits_*` lemmas), so that a
schema and a rule on text are read off a record together.
-/

namespace Assaybank.Library

open Assaybank.Runtime

/-- Units from 1 to 127. -/
def isAsciiText (s : JsString) : Bool := s.all fun c => 0 < c && c < 128

/-- A rule on strings that the literals of a source keep. -/
structure TextRule where
  holds : JsString → Bool
  ascii : ∀ {s}, isAsciiText s = true → holds s = true

/-- No rule. -/
def TextRule.any : TextRule := ⟨fun _ => true, fun _ => rfl⟩

mutual

/-- Whether every string of a value keeps a rule, the names of its members among them. -/
def everyString (text : JsString → Bool) : Value → Bool
  | .string s => text s
  | .array items => everyItem text items
  | .object members => everyMember text members
  | .null => true
  | .bool _ => true
  | .number _ => true
  | .nonFinite => true

def everyItem (text : JsString → Bool) : List Value → Bool
  | [] => true
  | item :: rest => everyString text item && everyItem text rest

def everyMember (text : JsString → Bool) : List (JsString × Value) → Bool
  | [] => true
  | (name, value) :: rest => text name && everyString text value && everyMember text rest

end

theorem everyItem_iff {text : JsString → Bool} {items : List Value} :
    everyItem text items = true ↔ ∀ item ∈ items, everyString text item = true := by
  induction items with
  | nil => simp [everyItem]
  | cons item rest inductionHypothesis => simp [everyItem, inductionHypothesis]

theorem everyMember_iff {text : JsString → Bool} {members : List (JsString × Value)} :
    everyMember text members = true ↔
      ∀ member ∈ members, text member.1 = true ∧ everyString text member.2 = true := by
  induction members with
  | nil => simp [everyMember]
  | cons member rest inductionHypothesis =>
      simp [everyMember, inductionHypothesis, and_assoc]

theorem everyMember_append {text : JsString → Bool} {left right : List (JsString × Value)} :
    everyMember text (left ++ right) = (everyMember text left && everyMember text right) := by
  induction left with
  | nil => rfl
  | cons member rest inductionHypothesis =>
      rw [List.cons_append, everyMember, inductionHypothesis, everyMember, Bool.and_assoc,
        Bool.and_assoc, Bool.and_assoc]

/-! ### Fitting -/

/-- A typed value that a schema accepts and whose text keeps a rule. -/
def Fits {α : Type} (text : TextRule) (schema : Schema α) (a : α) : Prop :=
  schema.Accepts a ∧ everyString text.holds (schema.encode a) = true

/-- The same of the members of an object. -/
def FieldsFit {α : Type} (text : TextRule) (fields : Fields α) (a : α) : Prop :=
  fields.Accepts a ∧ everyMember text.holds (fields.encode a) = true

section Scalars

variable {text : TextRule}

theorem fits_string {checks : List (Check JsString)} {s : JsString} :
    Fits text (.string checks) s ↔
      (∀ check ∈ checks, check.holds s = true) ∧ text.holds s = true :=
  and_congr_left fun _ => Schema.accepts_scalar

theorem fits_number {checks : List (Check Decimal)} {n : Decimal} :
    Fits text (.number checks) n ↔ ∀ check ∈ checks, check.holds n = true :=
  (and_iff_left rfl).trans Schema.accepts_scalar

theorem fits_integer {checks : List (Check Int)} {n : Int} :
    Fits text (.integer checks) n ↔ ∀ check ∈ checks, check.holds n = true :=
  (and_iff_left rfl).trans Schema.accepts_scalar

theorem fits_bool {b : Bool} : Fits text .bool b ↔ True :=
  (and_iff_left rfl).trans (Schema.accepts_scalar.trans (by simp))

theorem fits_enumeration {α : Type} {all : List α} {name : α → JsString}
    {decodes : ∀ a, all.find? (fun b => name b == name a) = some a} {a : α} :
    Fits text (.enumeration all name decodes) a ↔ text.holds (name a) = true :=
  and_iff_right (Schema.accepts_scalar.mpr (by simp))

theorem fits_record {entries : List (JsString × JsString)} :
    Fits text .record entries ↔ ∀ entry ∈ entries,
      entry.1 ≠ js "__proto__" ∧ text.holds entry.1 = true ∧ text.holds entry.2 = true := by
  have strings : everyString text.holds (Schema.record.encode entries) = true ↔
      ∀ entry ∈ entries, text.holds entry.1 = true ∧ text.holds entry.2 = true := by
    show everyMember text.holds (Schema.encodeRecord entries) = true ↔ _
    rw [everyMember_iff, Schema.encodeRecord, List.forall_mem_map]
    rfl
  unfold Fits
  rw [Schema.accepts_record, strings]
  exact forall₂_and.symm

end Scalars

section Containers

variable {α β : Type} {text : TextRule}

theorem fits_nullable {schema : Schema α} {notNull : ∀ a, schema.encode a ≠ .null}
    {a : Option α} :
    Fits text (.nullable schema notNull) a ↔ ∀ b, a = some b → Fits text schema b := by
  unfold Fits
  rw [Schema.accepts_nullable]
  cases a with
  | none => simp [Schema.nullable, everyString]
  | some a => simp [Schema.nullable]

theorem fits_array {schema : Schema α} {lengths : List (Check Nat)} {items : List α} :
    Fits text (.array schema lengths) items ↔
      (∀ a ∈ items, Fits text schema a) ∧
        ∀ check ∈ lengths, check.holds items.length = true := by
  have strings : everyString text.holds ((Schema.array schema lengths).encode items) = true ↔
      ∀ a ∈ items, everyString text.holds (schema.encode a) = true := by
    simp [Schema.array, everyString, everyItem_iff]
  unfold Fits
  rw [Schema.accepts_array, strings, and_right_comm]
  exact and_congr_left fun _ => forall₂_and.symm

theorem fits_strictObject {fields : Fields α} {shape : α ≃ β} {b : β} :
    Fits text (.strictObject fields shape) b ↔ FieldsFit text fields (shape.symm b) :=
  and_congr_left fun _ => Schema.accepts_strictObject

theorem fits_refine {schema : Schema α} {rules : α → List Issue} {a : α} :
    Fits text (schema.refine rules) a ↔ Fits text schema a ∧ rules a = [] := by
  unfold Fits
  rw [Schema.accepts_refine]
  exact and_right_comm

theorem fieldsFit_field {key : JsString} {schema : Schema α} {a : α}
    (literal : isAsciiText key = true) :
    FieldsFit text (.field key schema) a ↔ Fits text schema a := by
  unfold FieldsFit Fits
  rw [Fields.accepts_field]
  simp [Fields.field, everyMember, text.ascii literal]

theorem fieldsFit_optional {key : JsString} {schema : Schema α} {a : Option α}
    (literal : isAsciiText key = true) :
    FieldsFit text (.optional key schema) a ↔ ∀ b, a = some b → Fits text schema b := by
  unfold FieldsFit Fits
  rw [Fields.accepts_optional]
  cases a with
  | none => simp [Fields.optional, everyMember]
  | some a => simp [Fields.optional, everyMember, text.ascii literal]

theorem fieldsFit_withDefault {key : JsString} {schema : Schema α} {absent a : α}
    {valid : schema.Accepts absent} (literal : isAsciiText key = true) :
    FieldsFit text (.withDefault key schema absent valid) a ↔ Fits text schema a := by
  unfold FieldsFit Fits
  rw [Fields.accepts_withDefault]
  simp [Fields.withDefault, everyMember, text.ascii literal]

theorem fieldsFit_both {left : Fields α} {right : Fields β}
    {disjoint : ∀ key ∈ right.keys, key ∉ left.keys} {pair : α × β} :
    FieldsFit text (.both left right disjoint) pair ↔
      FieldsFit text left pair.1 ∧ FieldsFit text right pair.2 := by
  have strings : everyMember text.holds ((Fields.both left right disjoint).encode pair) = true ↔
      everyMember text.holds (left.encode pair.1) = true ∧
        everyMember text.holds (right.encode pair.2) = true := by
    show everyMember text.holds (left.encode pair.1 ++ right.encode pair.2) = true ↔ _
    rw [everyMember_iff, everyMember_iff, everyMember_iff, List.forall_mem_append]
  unfold FieldsFit
  rw [Fields.accepts_both, strings]
  exact and_and_and_comm

end Containers

mutual

/-- Without a rule every value is taken. -/
theorem everyString_true : ∀ value, everyString (fun _ => true) value = true
  | .string _ => rfl
  | .array items => everyItem_true items
  | .object members => everyMember_true members
  | .null => rfl
  | .bool _ => rfl
  | .number _ => rfl
  | .nonFinite => rfl

private theorem everyItem_true : ∀ items, everyItem (fun _ => true) items = true
  | [] => rfl
  | item :: rest => by
      simp only [everyItem, everyString_true item, everyItem_true rest, Bool.and_self]

private theorem everyMember_true : ∀ members, everyMember (fun _ => true) members = true
  | [] => rfl
  | (_, value) :: rest => by
      simp only [everyMember, everyString_true value, everyMember_true rest, Bool.and_self]

end

/-- Without a rule, what fits is what is accepted. -/
theorem fits_any {α : Type} {schema : Schema α} {a : α} :
    Fits .any schema a ↔ schema.Accepts a := by
  apply and_iff_left
  exact everyString_true _

end Assaybank.Library
