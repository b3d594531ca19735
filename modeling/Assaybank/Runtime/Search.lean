import Assaybank.Runtime.Lines

/-!
Owns what `indexOf` finds of one unit, and what `trim` leaves of a text between blanks.
-/

namespace Assaybank.Runtime

/-- A unit is found where it first stands. -/
theorem indexOf_first {front back : JsString} {c : CodeUnit} (absent : c ∉ front) :
    indexOf (front ++ c :: back) [c] 0 = some front.length := by
  rw [indexOf, List.find?_range'_eq_some]
  refine ⟨?_, ?_, ?_⟩
  · rw [List.drop_left, List.isPrefixOf_iff_prefix]
    exact List.prefix_append [c] back
  · rw [List.mem_range'_1, List.length_append, List.length_cons]
    omega
  · intro j _ early
    rw [Bool.not_eq_true', ← Bool.not_eq_true, List.isPrefixOf_iff_prefix]
    rintro ⟨rest, same⟩
    have here : (front ++ c :: back)[j]? = some c := by
      have head := congrArg List.head? same
      rw [List.head?_drop] at head
      exact head.symm
    rw [List.getElem?_append_left early] at here
    exact absent (List.mem_of_getElem? here)

/-- Where a unit is found, the text before it has none. -/
theorem indexOf_unit {text : JsString} {c : CodeUnit} {place : Nat}
    (found : indexOf text [c] 0 = some place) :
    c ∉ slice text 0 place ∧ text = slice text 0 place ++ c :: text.drop (place + 1) := by
  have before : slice text 0 place = text.take place := List.drop_zero
  obtain ⟨_, _, here⟩ := indexOf_spec found
  obtain ⟨rest, same⟩ := here
  rw [List.singleton_append] at same
  rw [before]
  constructor
  · intro inside
    obtain ⟨earlier, early, unit⟩ := List.mem_take_iff_getElem.mp inside
    rw [indexOf, List.find?_range'_eq_some] at found
    have missed := found.2.2 earlier (Nat.zero_le _) (Nat.lt_min.mp early).1
    rw [Bool.not_eq_true', ← Bool.not_eq_true, List.isPrefixOf_iff_prefix] at missed
    apply missed
    rw [List.drop_eq_getElem_cons (Nat.lt_min.mp early).2, unit]
    exact List.prefix_append [c] _
  · have tail : text.drop (place + 1) = rest := by
      rw [← List.drop_drop, ← same, List.drop_one, List.tail_cons]
    rw [tail, same, List.take_append_drop]

/-- A unit that is not there is not found. -/
theorem indexOf_absent {text : JsString} {c : CodeUnit} (absent : c ∉ text) :
    indexOf text [c] 0 = none := by
  rw [indexOf, List.find?_eq_none]
  intro place _ found
  obtain ⟨rest, same⟩ := List.isPrefixOf_iff_prefix.mp found
  apply absent
  apply List.mem_of_mem_drop (i := place)
  rw [← same]
  exact List.mem_append_left _ (List.mem_singleton_self c)

/-- A text with no blank at its ends is what is left when the blanks around it are trimmed. -/
theorem trim_around {left text right : JsString}
    (blank : ∀ c ∈ left ++ right, isSpace c = true) (filled : text ≠ [])
    (starts : isSpace (text.head filled) = false) (ends : isSpace (text.getLast filled) = false) :
    trim (left ++ text ++ right) = text := by
  obtain ⟨blankLeft, blankRight⟩ := List.forall_mem_append.mp blank
  have start : trimStart (left ++ text ++ right) = text ++ right := by
    obtain ⟨first, rest, rfl⟩ := List.exists_cons_of_ne_nil filled
    rw [trimStart, List.append_assoc, List.dropWhile_append_of_pos blankLeft, List.cons_append,
      List.dropWhile_cons_of_neg (by rw [show isSpace first = false from starts]; decide)]
  rw [trim, start, trimEnd, List.rdropWhile, List.reverse_append, List.dropWhile_append_of_pos
    fun c inside => blankRight c (List.mem_reverse.mp inside), ← List.rdropWhile,
    List.rdropWhile_eq_self_iff]
  intro _
  rw [ends]
  exact Bool.false_ne_true

/-- A text that `trim` leaves as it is has no blank at its ends. -/
theorem trim_ends {text : JsString} (trimmed : trim text = text) (filled : text ≠ []) :
    isSpace (text.head filled) = false ∧ isSpace (text.getLast filled) = false := by
  have shorter : text.length ≤ (trimStart text).length := by
    have ends := (List.rdropWhile_prefix isSpace (trimStart text)).length_le
    rwa [← trimEnd, ← trim, trimmed] at ends
  have start : trimStart text = text :=
    (List.dropWhile_suffix isSpace).eq_of_length
      (Nat.le_antisymm (List.dropWhile_suffix isSpace).length_le shorter)
  rw [trim, start, trimEnd, List.rdropWhile_eq_self_iff] at trimmed
  rw [trimStart, List.dropWhile_eq_self_iff] at start
  refine ⟨?_, Bool.eq_false_iff.mpr (trimmed filled)⟩
  rw [List.head_eq_getElem]
  exact Bool.eq_false_iff.mpr (start (List.length_pos_iff.mpr filled))

/-- A visible text is what is left when the blanks around it are trimmed. -/
theorem trim_between {left text right : JsString}
    (blank : ∀ c ∈ left ++ right, isSpace c = true) (visible : ∀ c ∈ text, isSpace c = false)
    (filled : text ≠ []) :
    trim (left ++ text ++ right) = text :=
  trim_around blank filled (visible _ (List.head_mem filled)) (visible _ (List.getLast_mem filled))

end Assaybank.Runtime
