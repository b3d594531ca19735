import Assaybank.Markdown.Safety
import Mathlib.Data.List.Chain

/-!
Owns which text nodes the inline scan leaves side by side
(`packages/markdown/src/inline.ts`).

Contract: every path that adds nodes keeps text nodes filled and apart but one, the splice of
a refused link's children; so the scan keeps them apart exactly when no splice puts text after
text (`everyList_parseInlineFrom`, `scanned_of_tidy`). A hard break may trim a node away again.
It does not own what a label or a destination is.
-/

namespace Assaybank.Markdown

open Assaybank.Runtime

/-! ### Child lists -/

def Inline.isText : Inline → Bool
  | .text _ => true
  | _ => false

mutual

/-- Every child list inside a node has a property. -/
def Inline.Within (P : List Inline → Prop) : Inline → Prop
  | .strong children => P children ∧ WithinAll P children
  | .emphasis children => P children ∧ WithinAll P children
  | .link _ children => P children ∧ WithinAll P children
  | _ => True

def WithinAll (P : List Inline → Prop) : List Inline → Prop
  | [] => True
  | node :: rest => node.Within P ∧ WithinAll P rest

end

/-- A list of nodes and every child list in it, at every depth, has a property. -/
def EveryList (P : List Inline → Prop) (nodes : List Inline) : Prop := P nodes ∧ WithinAll P nodes

/-- No text node is empty. -/
def Filled (nodes : List Inline) : Prop := ∀ node ∈ nodes, node ≠ .text []

/-- No two text nodes stand side by side. -/
def Apart (nodes : List Inline) : Prop :=
  nodes.IsChain fun first second => ¬(first.isText = true ∧ second.isText = true)

/-- What `pushText` says of its output. -/
def Tidy (nodes : List Inline) : Prop := Filled nodes ∧ Apart nodes

def startsWithText (nodes : List Inline) : Bool := nodes.head?.any Inline.isText

def endsWithText (nodes : List Inline) : Bool := nodes.getLast?.any Inline.isText

section Lists

variable {P : List Inline → Prop} {left right nodes : List Inline} {node : Inline}

theorem withinAll_iff : WithinAll P nodes ↔ ∀ node ∈ nodes, node.Within P := by
  induction nodes with
  | nil => exact iff_of_true trivial nofun
  | cons node rest inductionHypothesis =>
      rw [WithinAll, inductionHypothesis, List.forall_mem_cons]

theorem withinAll_append :
    WithinAll P (left ++ right) ↔ WithinAll P left ∧ WithinAll P right := by
  simp only [withinAll_iff, List.forall_mem_append]

theorem filled_append : Filled (left ++ right) ↔ Filled left ∧ Filled right := by
  unfold Filled
  exact List.forall_mem_append

theorem apart_append : Apart (left ++ right) ↔
    Apart left ∧ Apart right ∧ ¬(endsWithText left = true ∧ startsWithText right = true) := by
  unfold Apart endsWithText startsWithText
  rw [List.isChain_append]
  apply and_congr_right
  intro _
  apply and_congr_right
  intro _
  cases left.getLast? with
  | none => simp
  | some last =>
      cases right.head? with
      | none => simp
      | some first => simp

theorem tidy_append : Tidy (left ++ right) ↔
    Tidy left ∧ Tidy right ∧ ¬(endsWithText left = true ∧ startsWithText right = true) := by
  unfold Tidy
  rw [filled_append, apart_append]
  tauto

theorem tidy_nil : Tidy [] := ⟨nofun, List.IsChain.nil⟩

theorem tidy_singleton : Tidy [node] ↔ node ≠ .text [] := by
  unfold Tidy Filled Apart
  simp

end Lists

/-! ### The paths that add nodes -/

/-- A property that every path keeps, a splice only where it does not join. -/
structure ListRule (P : List Inline → Prop) (Joins : List Inline → List Inline → Prop) : Prop where
  nil : P []
  one : ∀ {value : JsString}, value ≠ [] → P [.text value]
  push : ∀ {out : List Inline} (value : JsString), P out → P (pushText out value)
  node : ∀ {out : List Inline} {node : Inline}, P out → node.isText = false → P (out ++ [node])
  trim : ∀ {out : List Inline}, P out → P (trimHardBreak out)
  splice : ∀ {out children : List Inline}, P out → P children → ¬Joins out children →
    P (out ++ children)

/-- A splice that puts text after text. -/
def JoinsText (out children : List Inline) : Prop :=
  endsWithText out = true ∧ startsWithText children = true

section Paths

variable {P : List Inline → Prop} {out : List Inline} {node : Inline}

/-- What `pushText` makes of a list: the list itself, or one more text node, or its last text
node made longer. -/
private theorem pushText_cases (out : List Inline) (value : JsString) :
    pushText out value = out ∨
      (value ≠ [] ∧ endsWithText out = false ∧ pushText out value = out ++ [.text value]) ∨
      ∃ rest last, value ≠ [] ∧ out = rest ++ [.text last] ∧
        pushText out value = rest ++ [.text (last ++ value)] := by
  unfold pushText
  by_cases empty : value = []
  · exact .inl (if_pos empty)
  · rw [if_neg empty]
    rcases List.eq_nil_or_concat' out with rfl | ⟨rest, last, rfl⟩
    · exact .inr (.inl ⟨empty, rfl, rfl⟩)
    · rw [List.getLast?_concat]
      cases last with
      | text last =>
          refine .inr (.inr ⟨rest, last, empty, rfl, ?_⟩)
          rw [List.dropLast_concat]
      | _ =>
          refine .inr (.inl ⟨empty, ?_, rfl⟩)
          unfold endsWithText
          rw [List.getLast?_concat]
          rfl

/-- What a hard break's trim leaves: the list, or a shorter one, whose last text node may have
lost spaces. -/
private theorem stripTrailing_cases (nodes : List Inline) :
    ∃ dropped, nodes = dropped ++ stripTrailing nodes ∨
      ∃ value trimmed rest, trimmed ≠ [] ∧ nodes = dropped ++ .text value :: rest ∧
        stripTrailing nodes = .text trimmed :: rest := by
  induction nodes with
  | nil => exact ⟨[], .inl rfl⟩
  | cons node rest inductionHypothesis =>
      cases node with
      | text value =>
          rw [stripTrailing]
          split
          · obtain ⟨dropped, whole | ⟨last, trimmed, before, filled, whole, stripped⟩⟩ :=
              inductionHypothesis
            · exact ⟨.text value :: dropped, .inl (congrArg (Inline.text value :: ·) whole)⟩
            · exact ⟨.text value :: dropped, .inr ⟨last, trimmed, before, filled,
                congrArg (Inline.text value :: ·) whole, stripped⟩⟩
          · rename_i filled
            exact ⟨[], .inr ⟨value, _, rest, filled, rfl, rfl⟩⟩
      | _ => exact ⟨[], .inl rfl⟩

private theorem trimHardBreak_cases (out : List Inline) :
    ∃ dropped, out = trimHardBreak out ++ dropped ∨
      ∃ value trimmed rest, trimmed ≠ [] ∧ out = rest ++ .text value :: dropped ∧
        trimHardBreak out = rest ++ [.text trimmed] := by
  obtain ⟨dropped, whole | ⟨value, trimmed, rest, filled, whole, stripped⟩⟩ :=
    stripTrailing_cases out.reverse
  · refine ⟨dropped.reverse, .inl ?_⟩
    unfold trimHardBreak
    rw [← List.reverse_append, ← whole, List.reverse_reverse]
  · refine ⟨dropped.reverse, .inr ⟨value, trimmed, rest.reverse, filled, ?_, ?_⟩⟩
    · have turned := congrArg List.reverse whole
      rw [List.reverse_reverse, List.reverse_append, List.reverse_cons, List.append_assoc] at turned
      exact turned
    · unfold trimHardBreak
      rw [stripped, List.reverse_cons]

private theorem withinAll_text {rest : List Inline} {value : JsString} :
    WithinAll P (rest ++ [.text value]) ↔ WithinAll P rest := by
  rw [withinAll_append]
  exact and_iff_left ⟨trivial, trivial⟩

private theorem withinAll_pushText (value : JsString) (within : WithinAll P out) :
    WithinAll P (pushText out value) := by
  rcases pushText_cases out value with same | ⟨_, _, same⟩ | ⟨rest, last, _, whole, same⟩
  · rwa [same]
  · rw [same]
    exact withinAll_text.mpr within
  · rw [same]
    rw [whole] at within
    exact withinAll_text.mpr (withinAll_text.mp within)

private theorem withinAll_trimHardBreak (within : WithinAll P out) :
    WithinAll P (trimHardBreak out) := by
  obtain ⟨dropped, whole | ⟨value, trimmed, rest, _, whole, same⟩⟩ := trimHardBreak_cases out
  · rw [whole] at within
    exact (withinAll_append.mp within).1
  · rw [whole] at within
    rw [same]
    exact withinAll_text.mpr (withinAll_append.mp within).1

private theorem tidy_pushText (value : JsString) (tidy : Tidy out) : Tidy (pushText out value) := by
  rcases pushText_cases out value with same | ⟨filled, notText, same⟩ | ⟨rest, last, filled, whole, same⟩
  · rwa [same]
  · rw [same, tidy_append, tidy_singleton]
    refine ⟨tidy, fun empty => filled (Inline.text.inj empty), ?_⟩
    rw [notText]
    exact fun joins => Bool.false_ne_true joins.1
  · rw [whole, tidy_append] at tidy
    rw [same, tidy_append, tidy_singleton]
    refine ⟨tidy.1, fun empty => filled ?_, tidy.2.2⟩
    exact (List.append_eq_nil_iff.mp (Inline.text.inj empty)).2

private theorem tidy_node (tidy : Tidy out) (notText : node.isText = false) :
    Tidy (out ++ [node]) := by
  rw [tidy_append, tidy_singleton]
  refine ⟨tidy, ?_, ?_⟩
  · rintro rfl
    cases notText
  · rintro ⟨_, starts⟩
    have starts : node.isText = true := starts
    rw [notText] at starts
    cases starts

private theorem tidy_trimHardBreak (tidy : Tidy out) : Tidy (trimHardBreak out) := by
  obtain ⟨dropped, whole | ⟨value, trimmed, rest, filled, whole, same⟩⟩ := trimHardBreak_cases out
  · rw [whole, tidy_append] at tidy
    exact tidy.1
  · rw [whole, tidy_append] at tidy
    rw [same, tidy_append, tidy_singleton]
    exact ⟨tidy.1, fun empty => filled (Inline.text.inj empty), tidy.2.2⟩

/-- Text nodes stay filled and apart on every path but a splice that joins. -/
theorem tidyRule : ListRule Tidy JoinsText where
  nil := tidy_nil
  one filled := tidy_singleton.mpr fun empty => filled (Inline.text.inj empty)
  push := tidy_pushText
  node := tidy_node
  trim := tidy_trimHardBreak
  splice tidyOut tidyChildren apart := tidy_append.mpr ⟨tidyOut, tidyChildren, apart⟩

private theorem filled_text {rest : List Inline} {value : JsString} :
    Filled (rest ++ [.text value]) ↔ Filled rest ∧ value ≠ [] := by
  rw [filled_append]
  apply and_congr_right
  intro _
  unfold Filled
  rw [List.forall_mem_singleton, ne_eq, Inline.text.injEq]

/-- Text nodes stay filled on every path. -/
theorem filledRule : ListRule Filled fun _ _ => False where
  nil := nofun
  one filled := List.forall_mem_singleton.mpr fun empty => filled (Inline.text.inj empty)
  push {out} value filled := by
    rcases pushText_cases out value with same | ⟨some, _, same⟩ | ⟨rest, last, some, whole, same⟩
    · rwa [same]
    · rw [same, filled_text]
      exact ⟨filled, some⟩
    · rw [whole, filled_text] at filled
      rw [same, filled_text]
      exact ⟨filled.1, fun empty => some (List.append_eq_nil_iff.mp empty).2⟩
  node {out node} filled notText := by
    rw [filled_append]
    refine ⟨filled, List.forall_mem_singleton.mpr ?_⟩
    rintro rfl
    cases notText
  trim {out} filled := by
    obtain ⟨dropped, whole | ⟨value, trimmed, rest, some, whole, same⟩⟩ := trimHardBreak_cases out
    · rw [whole, filled_append] at filled
      exact filled.1
    · rw [whole, filled_append] at filled
      rw [same, filled_text]
      exact ⟨filled.1, some⟩
  splice filledOut filledChildren _ := filled_append.mpr ⟨filledOut, filledChildren⟩

end Paths

/-! ### One step -/

/-- A link whose destination is refused, so that its words are spliced. -/
def Step.Refuses : Step → Prop
  | .link _ dest _ => safeUrl dest = none
  | _ => False

private theorem inside_of_refuses {step : Step} (refused : step.Refuses) : step.inside ≠ none := by
  cases step with
  | link label dest next => exact Option.some_ne_none label
  | _ => exact absurd refused id

section Emit

variable {P : List Inline → Prop} {Joins : List Inline → List Inline → Prop} {step : Step}
  {children out : List Inline} {rejected : List RejectedUrl}

private theorem everyList_node {node : Inline} (rule : ListRule P Joins) (every : EveryList P out)
    (notText : node.isText = false) (within : node.Within P) : EveryList P (out ++ [node]) :=
  ⟨rule.node every.1 notText, withinAll_append.mpr ⟨every.2, within, trivial⟩⟩

/-- A step keeps every list as it should be, unless it is a splice that joins. -/
theorem everyList_emit (rule : ListRule P Joins) (everyChildren : EveryList P children)
    (every : EveryList P out) (filled : ∀ body next, step = .autolink body next → body ≠ [])
    (apart : step.Refuses → ¬Joins out children) :
    EveryList P (emit step children out rejected).1 := by
  have pushed : ∀ value, EveryList P (pushText out value) := fun value =>
    ⟨rule.push value every.1, withinAll_pushText value every.2⟩
  cases step with
  | text value next => exact pushed value
  | escapedBreak next => exact everyList_node rule every rfl trivial
  | hardBreak next =>
      have trimmed : EveryList P (trimHardBreak out) :=
        ⟨rule.trim every.1, withinAll_trimHardBreak every.2⟩
      exact everyList_node rule trimmed rfl trivial
  | code value next => exact everyList_node rule every rfl trivial
  | image label dest next =>
      unfold emit
      simp only
      split
      · exact pushed label
      · exact everyList_node rule every rfl trivial
  | link label dest next =>
      unfold emit
      simp only
      split
      · rename_i refused
        exact ⟨rule.splice every.1 everyChildren.1 (apart refused),
          withinAll_append.mpr ⟨every.2, everyChildren.2⟩⟩
      · exact everyList_node rule every rfl everyChildren
  | autolink body next =>
      unfold emit
      simp only
      split
      · exact pushed body
      · have own : EveryList P [.text body] := ⟨rule.one (filled body next rfl), trivial, trivial⟩
        exact everyList_node rule every rfl own
  | emphasis strong inner next =>
      cases strong with
      | true => exact everyList_node rule every rfl everyChildren
      | false => exact everyList_node rule every rfl everyChildren

/-- The nodes do not depend on the destinations refused before. -/
theorem emit_nodes (other : List RejectedUrl) :
    (emit step children out rejected).1 = (emit step children out other).1 := by
  cases step with
  | image label dest next =>
      unfold emit
      simp only
      split <;> rfl
  | link label dest next =>
      unfold emit
      simp only
      split <;> rfl
  | autolink body next =>
      unfold emit
      simp only
      split <;> rfl
  | _ => rfl

end Emit

/-! ### A whole scan -/

/-- The nodes of a source. -/
def nodesOf (unicode : Unicode) (src : JsString) : List Inline := (parseInline unicode src []).1

/-- From position `i` on, with `out` collected, no splice of the scan joins, nor any in the scans
inside it. -/
inductive Scanned (unicode : Unicode) (Joins : List Inline → List Inline → Prop) :
    JsString → Nat → List Inline → Prop
  | stop {src : JsString} {i : Nat} {out : List Inline} (ended : src[i]? = none) :
      Scanned unicode Joins src i out
  | leaf {src : JsString} {i : Nat} {out : List Inline} {char : CodeUnit}
      (here : src[i]? = some char) (leaf : (stepAt unicode src i char).inside = none)
      (later : Scanned unicode Joins src (stepAt unicode src i char).next
        (emit (stepAt unicode src i char) [] out []).1) :
      Scanned unicode Joins src i out
  | inside {src : JsString} {i : Nat} {out : List Inline} {char : CodeUnit} {inner : JsString}
      (here : src[i]? = some char) (inside : (stepAt unicode src i char).inside = some inner)
      (within : Scanned unicode Joins inner 0 [])
      (apart : (stepAt unicode src i char).Refuses → ¬Joins out (nodesOf unicode inner))
      (later : Scanned unicode Joins src (stepAt unicode src i char).next
        (emit (stepAt unicode src i char) (nodesOf unicode inner) out []).1) :
      Scanned unicode Joins src i out

/-- No refused link whose label begins with text comes right after text. -/
def LabelsApart (unicode : Unicode) (src : JsString) : Prop :=
  Scanned unicode JoinsText src 0 []

section Scan

variable {unicode : Unicode} {src : JsString} {i : Nat} {char : CodeUnit} {out : List Inline}

/-- Every scan comes to its end. -/
theorem scanned_total (unicode : Unicode) (src : JsString) (i : Nat) (out : List Inline) :
    Scanned unicode (fun _ _ => False) src i out := by
  induction size : scanMeasure src i using Nat.strong_induction_on generalizing src i out with
  | h size inductionHypothesis =>
      cases here : src[i]? with
      | none => exact .stop here
      | some char =>
          have bound := (List.getElem?_eq_some_iff.mp here).1
          have onward : ∀ nodes, Scanned unicode (fun _ _ => False) src
              (stepAt unicode src i char).next nodes := by
            intro nodes
            have less := scanMeasure_next bound (stepAt_next unicode here)
            exact inductionHypothesis _ (size ▸ less) _ _ _ rfl
          cases inside : (stepAt unicode src i char).inside with
          | none => exact .leaf here inside (onward _)
          | some inner =>
              have shorter : scanMeasure inner 0 < scanMeasure src i :=
                scanMeasure_inside (stepAt_inside unicode here inside)
              have within := inductionHypothesis _ (size ▸ shorter) inner 0 [] rfl
              exact .inside here inside within (fun _ joins => joins) (onward _)

/-- The nodes of a scan do not depend on the destinations refused before it. -/
theorem parseInlineFrom_nodes (rejected : List RejectedUrl) :
    (parseInlineFrom unicode src i out rejected).1 =
      (parseInlineFrom unicode src i out []).1 := by
  have scanned := scanned_total unicode src i out
  induction scanned generalizing rejected with
  | stop ended => rw [parseInlineFrom_end ended, parseInlineFrom_end ended]
  | leaf here leaf _ laterHypothesis =>
      rw [parseInlineFrom_leaf here leaf, parseInlineFrom_leaf here leaf, emit_nodes [],
        laterHypothesis, laterHypothesis (emit _ _ _ _).2]
  | @inside src i out char inner here inside _ _ _ withinHypothesis laterHypothesis =>
      have same : ∀ other, (parseInlineFrom unicode src i out other).1 =
          (parseInlineFrom unicode src (stepAt unicode src i char).next
            (emit (stepAt unicode src i char) (nodesOf unicode inner) out []).1 []).1 := by
        intro other
        rw [parseInlineFrom_inside here inside, withinHypothesis other, emit_nodes []]
        exact laterHypothesis _
      exact (same rejected).trans (same []).symm

private theorem nodes_leaf (here : src[i]? = some char)
    (leaf : (stepAt unicode src i char).inside = none) :
    (parseInlineFrom unicode src i out []).1 =
      (parseInlineFrom unicode src (stepAt unicode src i char).next
        (emit (stepAt unicode src i char) [] out []).1 []).1 := by
  rw [parseInlineFrom_leaf here leaf, parseInlineFrom_nodes]

private theorem nodes_inside {inner : JsString} (here : src[i]? = some char)
    (inside : (stepAt unicode src i char).inside = some inner) :
    (parseInlineFrom unicode src i out []).1 =
      (parseInlineFrom unicode src (stepAt unicode src i char).next
        (emit (stepAt unicode src i char) (nodesOf unicode inner) out []).1 []).1 := by
  rw [parseInlineFrom_inside here inside, parseInlineFrom_nodes, emit_nodes []]
  rfl

/-- **The run lemma.** A property that every path keeps holds of every list a scan ends with, when
no splice in it joins. -/
theorem everyList_parseInlineFrom {P : List Inline → Prop}
    {Joins : List Inline → List Inline → Prop} (rule : ListRule P Joins)
    (scanned : Scanned unicode Joins src i out) (every : EveryList P out) :
    EveryList P (parseInlineFrom unicode src i out []).1 := by
  induction scanned with
  | stop ended =>
      rw [parseInlineFrom_end ended]
      exact every
  | leaf here leaf _ laterHypothesis =>
      rw [nodes_leaf here leaf]
      apply laterHypothesis
      exact everyList_emit rule ⟨rule.nil, trivial⟩ every (fun _ _ found => stepAt_autolink found)
        (fun refused => absurd leaf (inside_of_refuses refused))
  | inside here inside _ apart _ withinHypothesis laterHypothesis =>
      rw [nodes_inside here inside]
      apply laterHypothesis
      exact everyList_emit rule (withinHypothesis ⟨rule.nil, trivial⟩) every
        (fun _ _ found => stepAt_autolink found) apart

end Scan

/-! ### What a tidy list came from -/

section Converse

variable {unicode : Unicode} {src : JsString} {i : Nat} {step : Step}
  {children out : List Inline} {rejected : List RejectedUrl}

private theorem everyList_append {P : List Inline → Prop} {left right : List Inline}
    (within : WithinAll P (left ++ right)) (first : P left) (second : P right) :
    EveryList P left ∧ EveryList P right :=
  ⟨⟨first, (withinAll_append.mp within).1⟩, second, (withinAll_append.mp within).2⟩

private theorem tidy_of_pushText {value : JsString} (filled : Filled out)
    (after : EveryList Tidy (pushText out value)) : EveryList Tidy out := by
  rcases pushText_cases out value with same | ⟨_, _, same⟩ | ⟨rest, last, _, whole, same⟩
  · rwa [same] at after
  · rw [same] at after
    exact ⟨(tidy_append.mp after.1).1, withinAll_text.mp after.2⟩
  · rw [same] at after
    rw [whole] at filled ⊢
    have tidy := tidy_append.mp after.1
    refine ⟨tidy_append.mpr ⟨tidy.1, tidy_singleton.mpr fun empty => ?_, tidy.2.2⟩, ?_⟩
    · exact (filled_text.mp filled).2 (Inline.text.inj empty)
    · exact withinAll_text.mpr (withinAll_text.mp after.2)

private theorem tidy_of_node {node : Inline} (after : EveryList Tidy (out ++ [node])) :
    EveryList Tidy out ∧ node.Within Tidy :=
  ⟨⟨(tidy_append.mp after.1).1, (withinAll_append.mp after.2).1⟩,
    (withinAll_append.mp after.2).2.1⟩

/-- Where a step other than a hard break leaves tidy lists it found them tidy, and did not
join. -/
theorem tidy_of_emit (filled : Filled out) (notBreak : ∀ next, step ≠ .hardBreak next)
    (after : EveryList Tidy (emit step children out rejected).1) :
    EveryList Tidy out ∧ (step.inside ≠ none → EveryList Tidy children) ∧
      (step.Refuses → ¬JoinsText out children) := by
  have leaf : step.inside = none → ¬step.Refuses → EveryList Tidy out →
      EveryList Tidy out ∧ (step.inside ≠ none → EveryList Tidy children) ∧
        (step.Refuses → ¬JoinsText out children) := by
    intro none kept tidy
    exact ⟨tidy, fun some => absurd none some, fun refused => absurd refused kept⟩
  cases step with
  | text value next => exact leaf rfl id (tidy_of_pushText filled after)
  | escapedBreak next => exact leaf rfl id (tidy_of_node after).1
  | hardBreak next => exact absurd rfl (notBreak next)
  | code value next => exact leaf rfl id (tidy_of_node after).1
  | image label dest next =>
      unfold emit at after
      simp only at after
      split at after
      · exact leaf rfl id (tidy_of_pushText filled after)
      · exact leaf rfl id (tidy_of_node after).1
  | link label dest next =>
      unfold emit at after
      simp only at after
      split at after
      · have tidy := tidy_append.mp after.1
        obtain ⟨tidyOut, tidyChildren⟩ := everyList_append after.2 tidy.1 tidy.2.1
        exact ⟨tidyOut, fun _ => tidyChildren, fun _ => tidy.2.2⟩
      · rename_i href accepted
        obtain ⟨tidyOut, tidyChildren⟩ := tidy_of_node after
        refine ⟨tidyOut, fun _ => tidyChildren, fun refused => ?_⟩
        have refused : safeUrl dest = none := refused
        rw [accepted] at refused
        cases refused
  | autolink body next =>
      unfold emit at after
      simp only at after
      split at after
      · exact leaf rfl id (tidy_of_pushText filled after)
      · exact leaf rfl id (tidy_of_node after).1
  | emphasis strong inner next =>
      obtain ⟨tidyOut, tidyNode⟩ := tidy_of_node after
      refine ⟨tidyOut, fun _ => ?_, fun refused => absurd refused id⟩
      cases strong with
      | true => exact tidyNode
      | false => exact tidyNode

private theorem filled_nodesOf (unicode : Unicode) (src : JsString) :
    EveryList Filled (nodesOf unicode src) :=
  everyList_parseInlineFrom filledRule (scanned_total unicode src 0 [])
    ⟨filledRule.nil, trivial⟩

private theorem filled_emit (unicode : Unicode) (src : JsString) (i : Nat) (char : CodeUnit)
    (filledChildren : EveryList Filled children) (filled : EveryList Filled out) :
    EveryList Filled (emit (stepAt unicode src i char) children out []).1 :=
  everyList_emit filledRule filledChildren filled (fun _ _ found => stepAt_autolink found)
    fun _ impossible => impossible

private theorem noBreak_inside {char : CodeUnit} {inner : JsString}
    (inside : (stepAt unicode src i char).inside = some inner)
    (noBreak : ¬js "  \n" <:+: src) : ¬js "  \n" <:+: inner := by
  obtain ⟨start, stop, rfl⟩ := stepAt_inside_slice unicode inside
  intro there
  apply noBreak
  have part : slice src start stop <:+: src :=
    (List.drop_suffix start _).isInfix.trans (List.take_prefix stop src).isInfix
  exact there.trans part

/-- Without a hard break, a scan that ends with tidy lists has made no splice that joins. -/
theorem scanned_of_tidy (noBreak : ¬js "  \n" <:+: src) (filled : EveryList Filled out)
    (after : EveryList Tidy (parseInlineFrom unicode src i out []).1) :
    EveryList Tidy out ∧ Scanned unicode JoinsText src i out := by
  have scanned := scanned_total unicode src i out
  induction scanned with
  | stop ended =>
      rw [parseInlineFrom_end ended] at after
      exact ⟨after, .stop ended⟩
  | @leaf src i out char here leaf _ laterHypothesis =>
      rw [nodes_leaf here leaf] at after
      have notBreak : ∀ next, stepAt unicode src i char ≠ .hardBreak next := fun next found =>
        noBreak (stepAt_hardBreak here found)
      have filledNext := filled_emit unicode src i char ⟨filledRule.nil, trivial⟩ filled
      obtain ⟨emitted, later⟩ := laterHypothesis noBreak filledNext after
      exact ⟨(tidy_of_emit filled.1 notBreak emitted).1, .leaf here leaf later⟩
  | @inside src i out char inner here inside _ _ _ withinHypothesis laterHypothesis =>
      rw [nodes_inside here inside] at after
      have notBreak : ∀ next, stepAt unicode src i char ≠ .hardBreak next := fun next found =>
        noBreak (stepAt_hardBreak here found)
      have filledNext := filled_emit unicode src i char (filled_nodesOf unicode inner) filled
      obtain ⟨emitted, later⟩ := laterHypothesis noBreak filledNext after
      obtain ⟨tidy, tidyChildren, apart⟩ := tidy_of_emit filled.1 notBreak emitted
      have children := tidyChildren (by rw [inside]; exact Option.some_ne_none _)
      obtain ⟨_, within⟩ := withinHypothesis (noBreak_inside inside noBreak)
        ⟨filledRule.nil, trivial⟩ children
      exact ⟨tidy, .inside here inside within apart later⟩

end Converse

/-- **Text runs.** No child list of the output has an empty text node. When no refused link whose
label begins with text comes right after text, no list has two text nodes side by side either; and
in a source without a hard break only then. -/
theorem parseInline_textRuns (unicode : Unicode) (src : JsString) (rejected : List RejectedUrl) :
    EveryList Filled (parseInline unicode src rejected).1 ∧
      (LabelsApart unicode src → EveryList Tidy (parseInline unicode src rejected).1) ∧
      (¬js "  \n" <:+: src →
        (EveryList Tidy (parseInline unicode src rejected).1 ↔ LabelsApart unicode src)) := by
  have nodes : (parseInline unicode src rejected).1 = nodesOf unicode src :=
    parseInlineFrom_nodes rejected
  have tidy : LabelsApart unicode src → EveryList Tidy (nodesOf unicode src) := fun apart =>
    everyList_parseInlineFrom tidyRule apart ⟨tidy_nil, trivial⟩
  rw [nodes]
  refine ⟨filled_nodesOf unicode src, tidy, fun noBreak => ⟨fun after => ?_, tidy⟩⟩
  exact (scanned_of_tidy noBreak ⟨filledRule.nil, trivial⟩ after).2

/-- A hard break trims the second of two text nodes away again. -/
example : (parseInline asciiTables (js "a[ ](x:)  \n") []).1.map Inline.isText = [true, false] := by
  decide +kernel

/-- The words of a refused link stand beside the text before it. -/
theorem refused_label_beside_text :
    ¬∀ (unicode : Unicode) (src : JsString) (rejected : List RejectedUrl),
      EveryList Tidy (parseInline unicode src rejected).1 := by
  intro claimed
  have apart := (claimed asciiTables (js "a[b](x:)") []).1.2
  have texts : (parseInline asciiTables (js "a[b](x:)") []).1.map Inline.isText = [true, true] := by
    decide +kernel
  have both : ((parseInline asciiTables (js "a[b](x:)") []).1.map Inline.isText).IsChain
      fun first second => ¬(first = true ∧ second = true) := by
    rw [List.isChain_map]
    exact apart
  rw [texts] at both
  exact absurd both (by decide)

end Assaybank.Markdown
