import Mathlib.Data.List.Infix

/-!
Owns codes that are read symbol by symbol: a reader at a position of a sequence, and what it means
that a code stands for a value.

Contract: `Codes read code value` says that `read` takes exactly `code`, whatever follows it, and
gives `value`, and that it fails wherever the sequence ends inside the code. Codes compose as their
readers do (`Codes.bind`).
-/

namespace Assaybank.Library

/-- A position in a sequence. -/
structure Cursor (β : Type) where
  symbols : List β
  position : Nat

namespace Cursor

variable {β : Type}

/-- What is left to read. -/
def rest (cursor : Cursor β) : List β := cursor.symbols.drop cursor.position

def advance (cursor : Cursor β) (count : Nat) : Cursor β :=
  { cursor with position := cursor.position + count }

@[simp] theorem advance_symbols (cursor : Cursor β) (count : Nat) :
    (cursor.advance count).symbols = cursor.symbols := rfl

@[simp] theorem advance_position (cursor : Cursor β) (count : Nat) :
    (cursor.advance count).position = cursor.position + count := rfl

theorem advance_advance (cursor : Cursor β) (first second : Nat) :
    (cursor.advance first).advance second = cursor.advance (first + second) := by
  rw [advance, advance, advance, Nat.add_assoc]

theorem rest_advance {cursor : Cursor β} {code after : List β} (here : cursor.rest = code ++ after) :
    (cursor.advance code.length).rest = after := by
  show cursor.symbols.drop (cursor.position + code.length) = after
  rw [← List.drop_drop]
  show cursor.rest.drop code.length = after
  rw [here, List.drop_left]

theorem rest_next {cursor : Cursor β} {symbol : β} {after : List β}
    (here : cursor.rest = symbol :: after) : (cursor.advance 1).rest = after := by
  have one : cursor.rest = [symbol] ++ after := here
  exact rest_advance one

theorem rest_eq_nil {cursor : Cursor β} :
    cursor.rest = [] ↔ cursor.symbols[cursor.position]? = none := by
  rw [rest, List.drop_eq_nil_iff, List.getElem?_eq_none_iff]

theorem rest_head {cursor : Cursor β} {symbol : β} {after : List β}
    (here : cursor.rest = symbol :: after) : cursor.symbols[cursor.position]? = some symbol := by
  have first : cursor.rest[0]? = some symbol := by
    rw [here]
    rfl
  rwa [rest, List.getElem?_drop, Nat.add_zero] at first

end Cursor

/-- A reader: it moves a cursor, or fails. -/
abbrev Reading (β ε : Type) := StateT (Cursor β) (Except ε)

/-- `code` stands for `value`, and says by itself where it ends. -/
structure Codes {β ε α : Type} (read : Reading β ε α) (code : List β) (value : α) : Prop where
  whole : ∀ (cursor : Cursor β) (after : List β), cursor.rest = code ++ after →
    read cursor = .ok (value, cursor.advance code.length)
  short : ∀ cursor : Cursor β, cursor.rest <+: code → cursor.rest ≠ code →
    ∃ error, read cursor = .error error

section Composition

variable {β ε α γ : Type}

theorem Codes.pure (value : α) : Codes (Pure.pure value : Reading β ε α) [] value where
  whole := fun _ _ _ => rfl
  short := fun _ part proper => absurd (List.prefix_nil.mp part) proper

/-- One code after another. -/
theorem Codes.bind {first : Reading β ε α} {second : α → Reading β ε γ} {code later : List β}
    {value : α} {result : γ} (one : Codes first code value)
    (other : Codes (second value) later result) : Codes (first >>= second) (code ++ later) result where
  whole := by
    intro cursor after here
    rw [List.append_assoc] at here
    have read := one.whole cursor (later ++ after) here
    have onward := other.whole (cursor.advance code.length) after (Cursor.rest_advance here)
    show (first cursor >>= fun pair => second pair.1 pair.2) = _
    rw [read, List.length_append, ← Cursor.advance_advance]
    exact onward
  short := by
    intro cursor part proper
    show ∃ error, (first cursor >>= fun pair => second pair.1 pair.2) = .error error
    cases List.prefix_or_prefix_of_prefix part (List.prefix_append code later) with
    | inl inFirst =>
        by_cases exact : cursor.rest = code
        · -- The first code is read to its end, and nothing of the second is there.
          have read := one.whole cursor [] (by rw [exact, List.append_nil])
          have nothing : (cursor.advance code.length).rest = [] :=
            Cursor.rest_advance (by rw [exact, List.append_nil])
          have missing : (cursor.advance code.length).rest ≠ later := by
            intro empty
            rw [nothing] at empty
            rw [← empty, List.append_nil] at proper
            exact proper exact
          obtain ⟨error, failed⟩ := other.short (cursor.advance code.length)
            (by rw [nothing]; exact List.nil_prefix) missing
          exact ⟨error, by rw [read]; exact failed⟩
        · obtain ⟨error, failed⟩ := one.short cursor inFirst exact
          exact ⟨error, by rw [failed]; rfl⟩
    | inr beyond =>
        obtain ⟨remainder, shape⟩ := beyond
        have read := one.whole cursor remainder shape.symm
        have left := Cursor.rest_advance shape.symm
        have inSecond : (cursor.advance code.length).rest <+: later := by
          rw [left]
          rw [← shape] at part
          exact (List.prefix_append_right_inj code).mp part
        have stillProper : (cursor.advance code.length).rest ≠ later := by
          intro same
          rw [left] at same
          rw [← shape, same] at proper
          exact proper rfl
        obtain ⟨error, failed⟩ := other.short _ inSecond stillProper
        exact ⟨error, by rw [read]; exact failed⟩

/-- A value made of the one a code stands for. -/
theorem Codes.map {read : Reading β ε α} {code : List β} {value : α} (f : α → γ)
    (codes : Codes read code value) :
    Codes (read >>= fun value => Pure.pure (f value)) code (f value) := by
  have composed : Codes (read >>= fun value => Pure.pure (f value)) (code ++ []) (f value) :=
    codes.bind (Codes.pure (f value))
  rwa [List.append_nil] at composed

/-- A sequence that is the code and nothing else. -/
theorem Codes.read_all {read : Reading β ε α} {code : List β} {value : α}
    (codes : Codes read code value) : ∃ cursor, read ⟨code, 0⟩ = .ok (value, cursor) :=
  ⟨_, codes.whole ⟨code, 0⟩ [] (List.append_nil code).symm⟩

/-- A sequence that ends inside the code. -/
theorem Codes.read_part {read : Reading β ε α} {code part : List β} {value : α}
    (codes : Codes read code value) (inside : part <+: code) (proper : part ≠ code) :
    ∃ error, read ⟨part, 0⟩ = .error error :=
  codes.short ⟨part, 0⟩ inside proper

end Composition

end Assaybank.Library
