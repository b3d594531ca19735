import Assaybank.Runtime.Text

/-!
Owns UTF-8 as `Buffer` writes it and reads it: an unpaired surrogate is written as U+FFFD, and bytes
that are not UTF-8 are read as U+FFFD.

Contract: ASCII text has bytes of its own (`utf8Bytes_inj_ascii`), and is read back from them
(`utf8Text_utf8Bytes`).
-/

namespace Assaybank.Runtime

/-! ### Writing -/

/-- The bytes of a code point. -/
def utf8CodePoint (point : Nat) : List Nat :=
  if point < 0x80 then [point]
  else if point < 0x800 then [0xC0 + point / 64, 0x80 + point % 64]
  else if point < 0x10000 then
    [0xE0 + point / 4096, 0x80 + point / 64 % 64, 0x80 + point % 64]
  else
    [0xF0 + point / 262144, 0x80 + point / 4096 % 64, 0x80 + point / 64 % 64, 0x80 + point % 64]

/-- The bytes of a unit that stands alone: an unpaired surrogate is written as U+FFFD. -/
def utf8Unit (c : CodeUnit) : List Nat :=
  if isHighSurrogate c || isLowSurrogate c then utf8CodePoint 0xFFFD else utf8CodePoint c.toNat

/-- `Buffer.from(s, 'utf8')`. -/
def utf8Bytes : JsString → List Nat
  | [] => []
  | [c] => utf8Unit c
  | c :: d :: rest =>
      if isHighSurrogate c && isLowSurrogate d then
        utf8CodePoint (0x10000 + (c.toNat - 0xD800) * 1024 + (d.toNat - 0xDC00)) ++ utf8Bytes rest
      else utf8Unit c ++ utf8Bytes (d :: rest)

/-! ### Reading -/

/-- Within a code point: how many bytes are left, what the next of them lies between, and the bits
so far. -/
structure Utf8State where
  needed : Nat
  low : Nat
  high : Nat
  point : Nat

/-- Between two code points. -/
def Utf8State.between : Utf8State := ⟨0, 0x80, 0xBF, 0⟩

/-- The units of a code point. -/
def pointUnits (point : Nat) : JsString :=
  if point < 0x10000 then [UInt16.ofNat point]
  else [UInt16.ofNat (0xD800 + (point - 0x10000) / 1024),
    UInt16.ofNat (0xDC00 + (point - 0x10000) % 1024)]

/-- A byte between two code points: the units it completes, and where it leads. -/
def utf8First (byte : Nat) : JsString × Utf8State :=
  if byte < 0x80 then ([UInt16.ofNat byte], .between)
  else if 0xC2 ≤ byte ∧ byte ≤ 0xDF then ([], ⟨1, 0x80, 0xBF, byte - 0xC0⟩)
  else if 0xE0 ≤ byte ∧ byte ≤ 0xEF then
    ([], ⟨2, if byte = 0xE0 then 0xA0 else 0x80, if byte = 0xED then 0x9F else 0xBF, byte - 0xE0⟩)
  else if 0xF0 ≤ byte ∧ byte ≤ 0xF4 then
    ([], ⟨3, if byte = 0xF0 then 0x90 else 0x80, if byte = 0xF4 then 0x8F else 0xBF, byte - 0xF0⟩)
  else ([0xFFFD], .between)

/-- A byte anywhere. One that does not go on with a code point cuts it off, and starts anew. -/
def utf8Next (state : Utf8State) (byte : Nat) : JsString × Utf8State :=
  if state.needed = 0 then utf8First byte
  else if state.low ≤ byte ∧ byte ≤ state.high then
    let point := state.point * 64 + byte % 64
    if state.needed = 1 then (pointUnits point, .between)
    else ([], ⟨state.needed - 1, 0x80, 0xBF, point⟩)
  else (0xFFFD :: (utf8First byte).1, (utf8First byte).2)

def utf8TextFrom (state : Utf8State) : List Nat → JsString
  | [] => if state.needed = 0 then [] else [0xFFFD]
  | byte :: rest => (utf8Next state byte).1 ++ utf8TextFrom (utf8Next state byte).2 rest

/-- `toString('utf8')`. -/
def utf8Text (bytes : List Nat) : JsString := utf8TextFrom .between bytes

/-! ### ASCII -/

private theorem utf8Unit_ascii {c : CodeUnit} (ascii : c < 128) : utf8Unit c = [c.toNat] := by
  have below : c.toNat < 128 := by simpa [UInt16.lt_iff_toNat_lt] using ascii
  have plain : (isHighSurrogate c || isLowSurrogate c) = false := by
    simp only [isHighSurrogate, isLowSurrogate, Bool.or_eq_false_iff, Bool.and_eq_false_iff,
      decide_eq_false_iff_not, UInt16.le_iff_toNat_le, UInt16.reduceToNat]
    omega
  rw [utf8Unit, plain, if_neg (by decide), utf8CodePoint, if_pos (by omega)]

private theorem utf8Bytes_ascii_cons {c : CodeUnit} {rest : JsString} (small : c < 128) :
    utf8Bytes (c :: rest) = c.toNat :: utf8Bytes rest := by
  cases rest with
  | nil => simp [utf8Bytes, utf8Unit_ascii small]
  | cons d rest =>
      have low : isHighSurrogate c = false := by
        have below : c.toNat < 128 := by simpa [UInt16.lt_iff_toNat_lt] using small
        simp only [isHighSurrogate, Bool.and_eq_false_iff, decide_eq_false_iff_not,
          UInt16.le_iff_toNat_le, UInt16.reduceToNat]
        omega
      rw [utf8Bytes, low, Bool.false_and, if_neg (by decide), utf8Unit_ascii small]
      rfl

private theorem utf8CodePoint_head (point : Nat) :
    ∃ byte rest, utf8CodePoint point = byte :: rest ∧ (byte < 128 → byte = point ∧ rest = []) := by
  unfold utf8CodePoint
  split
  · exact ⟨_, _, rfl, fun _ => ⟨rfl, rfl⟩⟩
  · split
    · exact ⟨_, _, rfl, fun small => absurd small (by omega)⟩
    · split
      · exact ⟨_, _, rfl, fun small => absurd small (by omega)⟩
      · exact ⟨_, _, rfl, fun small => absurd small (by omega)⟩

private theorem utf8Unit_head (c : CodeUnit) :
    ∃ byte rest, utf8Unit c = byte :: rest ∧ (byte < 128 → byte = c.toNat ∧ rest = []) := by
  unfold utf8Unit
  split
  · exact ⟨_, _, rfl, fun small => absurd small (by decide)⟩
  · exact utf8CodePoint_head c.toNat

/-- A string whose first byte is below 128 starts with that unit, and the other bytes are those of
the rest. -/
private theorem utf8Bytes_ascii_head {s : JsString} {byte : Nat} {bytes : List Nat}
    (small : byte < 128) (same : utf8Bytes s = byte :: bytes) :
    ∃ c rest, s = c :: rest ∧ c.toNat = byte ∧ utf8Bytes rest = bytes := by
  have single {c : CodeUnit} {rest : JsString} (head : utf8Unit c ++ utf8Bytes rest = byte :: bytes) :
      c.toNat = byte ∧ utf8Bytes rest = bytes := by
    obtain ⟨first, others, written, alone⟩ := utf8Unit_head c
    rw [written, List.cons_append, List.cons.injEq] at head
    obtain ⟨rfl, tail⟩ := head
    obtain ⟨unit, rfl⟩ := alone small
    exact ⟨unit.symm, tail⟩
  fun_cases utf8Bytes s with
  | case1 => cases same
  | case2 c =>
      have head : utf8Unit c ++ utf8Bytes [] = byte :: bytes := by
        simpa [utf8Bytes] using same
      exact ⟨c, [], rfl, single head⟩
  | case3 c d rest pair =>
      rw [utf8Bytes, if_pos pair] at same
      obtain ⟨first, others, written, alone⟩ :=
        utf8CodePoint_head (0x10000 + (c.toNat - 0xD800) * 1024 + (d.toNat - 0xDC00))
      rw [written, List.cons_append, List.cons.injEq] at same
      have point := (alone (same.1 ▸ small)).1
      omega
  | case4 c d rest other =>
      rw [utf8Bytes, if_neg other] at same
      exact ⟨c, d :: rest, rfl, single same⟩

/-- ASCII text has bytes of its own. -/
theorem utf8Bytes_inj_ascii {s t : JsString} (ascii : ∀ c ∈ s, c < 128)
    (same : utf8Bytes s = utf8Bytes t) : s = t := by
  induction s generalizing t with
  | nil =>
      cases t with
      | nil => rfl
      | cons c rest =>
          exfalso
          have filled : utf8Bytes (c :: rest) ≠ [] := by
            cases rest with
            | nil =>
                obtain ⟨byte, others, written, _⟩ := utf8Unit_head c
                simp [utf8Bytes, written]
            | cons d rest =>
                unfold utf8Bytes
                split
                · obtain ⟨byte, others, written, _⟩ := utf8CodePoint_head
                    (0x10000 + (c.toNat - 0xD800) * 1024 + (d.toNat - 0xDC00))
                  simp [written]
                · obtain ⟨byte, others, written, _⟩ := utf8Unit_head c
                  simp [written]
          exact filled same.symm
  | cons c rest inductionHypothesis =>
      have small := ascii c List.mem_cons_self
      have first : utf8Bytes (c :: rest) = c.toNat :: utf8Bytes rest := utf8Bytes_ascii_cons small
      have below : c.toNat < 128 := by simpa [UInt16.lt_iff_toNat_lt] using small
      obtain ⟨d, others, rfl, unit, tail⟩ := utf8Bytes_ascii_head below (same.symm.trans first)
      rw [UInt16.toNat_inj.mp unit,
        inductionHypothesis (fun e inside => ascii e (List.mem_cons_of_mem _ inside)) tail.symm]

/-- ASCII text is a byte for each unit. -/
theorem utf8Bytes_ascii {s : JsString} (ascii : ∀ c ∈ s, c < 128) :
    utf8Bytes s = s.map UInt16.toNat := by
  induction s with
  | nil => rfl
  | cons c rest inductionHypothesis =>
      have small := ascii c List.mem_cons_self
      rw [utf8Bytes_ascii_cons small,
        inductionHypothesis fun d inside => ascii d (List.mem_cons_of_mem _ inside), List.map_cons]

private theorem utf8TextFrom_ascii {s : JsString} (ascii : ∀ c ∈ s, c < 128) :
    utf8TextFrom .between (s.map UInt16.toNat) = s := by
  induction s with
  | nil => rfl
  | cons c rest inductionHypothesis =>
      have small : c.toNat < 0x80 := by
        simpa [UInt16.lt_iff_toNat_lt] using ascii c List.mem_cons_self
      have first : utf8Next .between c.toNat = ([c], .between) := by
        have between : Utf8State.between.needed = 0 := rfl
        rw [utf8Next, if_pos between, utf8First, if_pos small, UInt16.ofNat_toNat]
      rw [List.map_cons, utf8TextFrom, first,
        inductionHypothesis fun d inside => ascii d (List.mem_cons_of_mem _ inside),
        List.singleton_append]

/-- ASCII text is read back from its bytes. -/
theorem utf8Text_utf8Bytes {s : JsString} (ascii : ∀ c ∈ s, c < 128) :
    utf8Text (utf8Bytes s) = s := by
  rw [utf8Bytes_ascii ascii, utf8Text, utf8TextFrom_ascii ascii]

end Assaybank.Runtime
