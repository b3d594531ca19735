import Assaybank.Runtime.Text

/-!
Owns a text as its lines: what splitting, joining and trimming leave alone.

Contract: a line holds no separator and nothing but what the text holds; dropping separators at
either end takes lines away and adds none; trimming twice is trimming once.
-/

namespace Assaybank.Runtime

section Ends

variable {α : Type} {p : α → Bool}

/-- What has been trimmed at both ends has nothing left to trim at its start. -/
theorem dropWhile_trimmed (s : List α) :
    ((s.dropWhile p).rdropWhile p).dropWhile p = (s.dropWhile p).rdropWhile p := by
  have start := List.head?_dropWhile_not p s
  obtain ⟨tail, whole⟩ := List.rdropWhile_prefix p (s.dropWhile p)
  cases shape : (s.dropWhile p).rdropWhile p with
  | nil => rfl
  | cons first rest =>
      rw [← whole, shape] at start
      have kept : p first = false := by simpa using start
      apply List.dropWhile_cons_of_neg
      rw [kept]
      exact Bool.false_ne_true

theorem trim_trim (s : JsString) : trim (trim s) = trim s := by
  show ((trim s).dropWhile isSpace).rdropWhile isSpace = trim s
  have start : (trim s).dropWhile isSpace = trim s := dropWhile_trimmed s
  rw [start]
  exact List.rdropWhile_idempotent isSpace _

/-- Nothing is left of white space. -/
theorem trim_eq_nil {s : JsString} : trim s = [] ↔ s.all isSpace = true := by
  rw [trim, trimEnd, trimStart, List.rdropWhile_eq_nil_iff, List.all_eq_true]
  constructor
  · intro blank c inside
    by_contra visible
    have kept : s.dropWhile isSpace ≠ [] := by
      rw [ne_eq, List.dropWhile_eq_nil_iff]
      exact fun all => visible (all c inside)
    have first := List.head_dropWhile_not isSpace kept
    rw [blank _ (List.head_mem kept)] at first
    cases first
  · intro blank c inside
    exact blank c ((List.dropWhile_sublist isSpace).subset inside)

theorem mem_of_mem_trim {s : JsString} {c : CodeUnit} (member : c ∈ trim s) : c ∈ s :=
  (List.dropWhile_sublist isSpace).subset ((List.rdropWhile_prefix isSpace _).subset member)

end Ends

/-! ### Splitting -/

section Splitting

variable {separator : CodeUnit} {s line : JsString}

/-- There is one line more than there are separators. -/
theorem length_splitOn (separator : CodeUnit) (s : JsString) :
    (splitOn separator s).length = s.count separator + 1 := by
  induction s with
  | nil => rfl
  | cons first rest inductionHypothesis =>
      rw [splitOn, List.splitOn_cons_eq_if_modifyHead, List.count_cons]
      rw [splitOn] at inductionHypothesis
      split
      · rw [List.length_cons, inductionHypothesis]
      · rw [List.length_modifyHead, inductionHypothesis]

/-- A line holds no separator and nothing but what the text holds. -/
theorem mem_of_mem_splitOn (here : line ∈ splitOn separator s) :
    ∀ c ∈ line, c ≠ separator ∧ c ∈ s := by
  induction s generalizing line with
  | nil =>
      rw [splitOn, List.splitOn_nil, List.mem_singleton] at here
      subst here
      intro c impossible
      cases impossible
  | cons first rest inductionHypothesis =>
      rw [splitOn, List.splitOn_cons_eq_if_modifyHead] at here
      have onward : ∀ other ∈ rest.splitOn separator, ∀ c ∈ other,
          c ≠ separator ∧ c ∈ first :: rest := by
        intro other inside c member
        have known := inductionHypothesis inside c member
        exact ⟨known.1, List.mem_cons_of_mem _ known.2⟩
      split at here
      · cases List.mem_cons.mp here with
        | inl empty =>
            subst empty
            intro c impossible
            cases impossible
        | inr later => exact onward line later
      · rename_i other
        cases shape : rest.splitOn separator with
        | nil => exact absurd shape (List.splitOn_ne_nil separator rest)
        | cons head lines =>
            rw [shape] at here onward
            cases List.mem_cons.mp here with
            | inl same =>
                rw [same]
                intro c member
                cases List.mem_cons.mp member with
                | inl start =>
                    rw [start]
                    exact ⟨fun equal => other (beq_iff_eq.mpr equal), List.mem_cons_self⟩
                | inr after => exact onward head List.mem_cons_self c after
            | inr later => exact onward line (List.mem_cons_of_mem _ later)

/-- A joined text holds the separators and what its lines hold. -/
theorem mem_of_mem_joinWith {lines : List JsString} {c : CodeUnit}
    (member : c ∈ joinWith [separator] lines) : c = separator ∨ ∃ line ∈ lines, c ∈ line := by
  induction lines with
  | nil => cases member
  | cons first rest inductionHypothesis =>
      cases rest with
      | nil =>
          rw [joinWith, List.intercalate_singleton] at member
          exact .inr ⟨first, List.mem_cons_self, member⟩
      | cons next later =>
          rw [joinWith, List.intercalate_cons_cons, List.append_assoc, List.mem_append,
            List.mem_append, List.mem_singleton] at member
          rcases member with here | same | after
          · exact .inr ⟨first, List.mem_cons_self, here⟩
          · exact .inl same
          · rcases inductionHypothesis after with same | ⟨line, inside, found⟩
            · exact .inl same
            · exact .inr ⟨line, List.mem_cons_of_mem _ inside, found⟩

/-- Dropping separators at the start adds no line. -/
theorem mem_splitOn_dropWhile (here : line ∈ splitOn separator (s.dropWhile (· == separator))) :
    line ∈ splitOn separator s := by
  induction s with
  | nil => exact here
  | cons first rest inductionHypothesis =>
      by_cases same : first = separator
      · subst same
        rw [List.dropWhile_cons, if_pos (beq_self_eq_true _)] at here
        have split : splitOn first (first :: rest) = splitOn first [] ++ splitOn first rest :=
          List.splitOn_append_cons_self [] rest
        rw [split]
        exact List.mem_append_right _ (inductionHypothesis here)
      · have other : ¬ (first == separator) = true := fun equal => same (beq_iff_eq.mp equal)
        rwa [List.dropWhile_cons, if_neg other] at here

/-- Dropping separators at the end adds no line. -/
theorem mem_splitOn_rdropWhile (here : line ∈ splitOn separator (s.rdropWhile (· == separator))) :
    line ∈ splitOn separator s := by
  induction s using List.reverseRecOn with
  | nil => exact here
  | append_singleton rest last inductionHypothesis =>
      by_cases same : last = separator
      · subst same
        rw [List.rdropWhile_concat, if_pos (beq_self_eq_true _)] at here
        have split : splitOn last (rest ++ [last]) = splitOn last rest ++ splitOn last [] :=
          List.splitOn_append_cons_self rest []
        rw [split]
        exact List.mem_append_left _ (inductionHypothesis here)
      · have other : ¬ (last == separator) = true := fun equal => same (beq_iff_eq.mp equal)
        rwa [List.rdropWhile_concat, if_neg other] at here

end Splitting

/-! ### Newlines -/

theorem not_return_mem_normaliseNewlines (s : JsString) :
    ∀ c ∈ normaliseNewlines s, c ≠ unit '\r' := by
  have newline : unit '\n' ≠ unit '\r' := by decide
  fun_induction normaliseNewlines s with
  | case1 =>
      intro c impossible
      cases impossible
  | case2 => simpa using newline
  | case3 c other => simpa using other
  | case4 rest inductionHypothesis => simpa [newline] using inductionHypothesis
  | case5 d rest other inductionHypothesis => simpa [newline] using inductionHypothesis
  | case6 c d rest other inductionHypothesis => simpa [other] using inductionHypothesis

theorem normaliseNewlines_eq_self {s : JsString} (clean : ∀ c ∈ s, c ≠ unit '\r') :
    normaliseNewlines s = s := by
  fun_induction normaliseNewlines s with
  | case1 => rfl
  | case2 => exact absurd rfl (clean _ List.mem_cons_self)
  | case3 => rfl
  | case4 => exact absurd rfl (clean _ List.mem_cons_self)
  | case5 => exact absurd rfl (clean _ List.mem_cons_self)
  | case6 c d rest other inductionHypothesis =>
      rw [inductionHypothesis (fun one inside => clean one (List.mem_cons_of_mem _ inside))]

end Assaybank.Runtime
