import Assaybank.Library.Schema

/-!
Owns that a schema never refuses in silence: what loses its value carries an issue.

It does not own which issue that is.
-/

namespace Assaybank.Library

open Assaybank.Runtime

/-- A value that was lost has an issue that says so. -/
def Parsed.Explained {α : Type} (parsed : Parsed α) : Prop :=
  parsed.value = none → parsed.issues ≠ []

/-- A schema that says why it loses a value. -/
def Schema.Explains {α : Type} (schema : Schema α) : Prop :=
  ∀ value, (schema.parse value).Explained

/-- Members that say why they lose a value. -/
def Fields.Explains {α : Type} (fields : Fields α) : Prop :=
  ∀ get, (fields.parse get).Explained

namespace Parsed

variable {α β : Type} {parsed : Parsed α}

theorem explained_accepted (a : α) : (accepted a).Explained := by
  intro lost
  cases lost

theorem explained_refused (rule : Rule) : (refused rule : Parsed α).Explained := by
  intro _ silent
  cases silent

theorem Explained.map (explained : parsed.Explained) (f : α → β) : (parsed.map f).Explained := by
  intro lost
  exact explained (Option.map_eq_none_iff.mp lost)

theorem Explained.within (explained : parsed.Explained) (segment : Segment) :
    (parsed.within segment).Explained := by
  intro lost silent
  exact explained lost (List.map_eq_nil_iff.mp silent)

theorem Explained.both {other : Parsed β} (left : parsed.Explained) (right : other.Explained) :
    (parsed.both other).Explained := by
  intro lost silent
  obtain ⟨silentLeft, silentRight⟩ := List.append_eq_nil_iff.mp silent
  cases first : parsed.value with
  | none => exact left first silentLeft
  | some a =>
      cases second : other.value with
      | none => exact right second silentRight
      | some b =>
          rw [Parsed.both, first, second] at lost
          cases lost

end Parsed

namespace Schema

variable {α β : Type} {schema : Schema α}

theorem explains_scalar {decode : Value → Option α} {encode : α → Value}
    {decodes : ∀ a, decode (encode a) = some a} {checks : List (Check α)} :
    (scalar decode encode decodes checks).Explains := by
  intro value
  unfold scalar
  simp only
  split
  · exact Parsed.explained_refused _
  · intro lost
    cases lost

theorem explains_string {checks : List (Check JsString)} : (string checks).Explains :=
  explains_scalar

theorem explains_number {checks : List (Check Decimal)} : (number checks).Explains :=
  explains_scalar

theorem explains_integer {checks : List (Check Int)} : (integer checks).Explains :=
  explains_scalar

theorem explains_bool : bool.Explains := explains_scalar

theorem explains_enumeration {all : List α} {name : α → JsString}
    {decodes : ∀ a, all.find? (fun b => name b == name a) = some a} :
    (enumeration all name decodes).Explains :=
  explains_scalar

theorem Explains.nullable (explains : schema.Explains) {notNull : ∀ a, schema.encode a ≠ .null} :
    (schema.nullable notNull).Explains := by
  intro value
  show (parseNullable schema value).Explained
  by_cases isNull : value = .null
  · rw [isNull]
    exact Parsed.explained_accepted _
  · rw [parseNullable_of_ne_null isNull]
    exact (explains value).map _

private theorem explained_elements (explains : schema.Explains) (index : Nat)
    (values : List Value) : (parseElements schema index values).Explained := by
  induction values generalizing index with
  | nil => exact Parsed.explained_accepted _
  | cons value rest inductionHypothesis =>
      exact (((explains value).within _).both (inductionHypothesis (index + 1))).map _

theorem Explains.array (explains : schema.Explains) {lengths : List (Check Nat)} :
    (schema.array lengths).Explains := by
  intro value
  cases value with
  | array values =>
      intro lost silent
      exact explained_elements explains 0 values lost (List.append_eq_nil_iff.mp silent).1
  | _ => exact Parsed.explained_refused _

private theorem explained_record (members : List (JsString × Value)) :
    (parseRecord members).Explained := by
  induction members with
  | nil => exact Parsed.explained_accepted _
  | cons member rest inductionHypothesis =>
      unfold parseRecord
      split
      · exact inductionHypothesis
      · exact (((explains_string member.2).within _).both inductionHypothesis).map _

theorem explains_record : record.Explains := by
  intro value
  cases value with
  | object members => exact explained_record members
  | _ => exact Parsed.explained_refused _

end Schema

namespace Fields

variable {α β : Type}

theorem explains_field {key : JsString} {schema : Schema α} (explains : schema.Explains) :
    (field key schema).Explains := by
  intro get
  unfold field
  simp only
  split
  · exact (Parsed.explained_refused _).within _
  · exact (explains _).within _

theorem Explains.both {left : Fields α} {right : Fields β} (first : left.Explains)
    (second : right.Explains) {disjoint : ∀ key ∈ right.keys, key ∉ left.keys} :
    (left.both right disjoint).Explains := by
  intro get
  exact (first get).both (second get)

end Fields

namespace Schema

variable {α β : Type}

theorem explains_strictObject {fields : Fields α} {shape : α ≃ β} (explains : fields.Explains) :
    (strictObject fields shape).Explains := by
  intro value
  cases value with
  | object members =>
      show Parsed.Explained (if members.all fun member => fields.keys.contains member.1 then _ else _)
      split
      · exact (explains _).map _
      · intro _ silent
        exact absurd (List.append_eq_nil_iff.mp silent).2 (List.cons_ne_nil _ _)
  | _ => exact Parsed.explained_refused _

theorem Explains.refine {schema : Schema α} (explains : schema.Explains)
    {rules : α → List Issue} : (schema.refine rules).Explains := by
  intro value lost silent
  exact explains value lost (List.append_eq_nil_iff.mp silent).1

end Schema

end Assaybank.Library
