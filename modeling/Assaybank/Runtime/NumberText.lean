import Assaybank.Runtime.Decimal
import Assaybank.Runtime.Text
import Mathlib.Data.Nat.Digits.Lemmas

/-!
Owns the text of a number: what `String` writes, what `Number` reads, and `padStart`.

Contract: `Number` reads back what `String` wrote (`toNumber_numberText`), which is a number of JSON
(`isJsonNumber_numberText`). A numeral is read exactly, where the runtime rounds one of more than
seventeen digits to a double and takes one past the largest double for an infinity.
-/

namespace Assaybank.Runtime

/-- The unit of a digit. -/
def digitUnit (digit : Nat) : CodeUnit := (48 + digit).toUInt16

/-- `String(n)`. -/
def natText (n : Nat) : JsString :=
  if n = 0 then [digitUnit 0] else (Nat.digits 10 n).reverse.map digitUnit

/-- `padStart(width, fill)` for a one-unit fill. -/
def padStart (width : Nat) (fill : CodeUnit) (s : JsString) : JsString :=
  List.replicate (width - s.length) fill ++ s

theorem isDigit_digitUnit {digit : Nat} (small : digit < 10) : isDigit (digitUnit digit) = true := by
  interval_cases digit <;> decide

theorem digitValue_digitUnit {digit : Nat} (small : digit < 10) :
    digitValue (digitUnit digit) = digit := by
  interval_cases digit <;> decide

theorem isDigit_natText {n : Nat} {c : CodeUnit} (inside : c ∈ natText n) : isDigit c = true := by
  unfold natText at inside
  split at inside
  · rw [List.mem_singleton.mp inside]
    exact isDigit_digitUnit (by omega)
  · obtain ⟨digit, member, rfl⟩ := List.mem_map.mp inside
    exact isDigit_digitUnit (Nat.digits_lt_base (by omega) (List.mem_reverse.mp member))

theorem length_natText_pos (n : Nat) : 0 < (natText n).length := by
  unfold natText
  split
  · exact Nat.one_pos
  · rename_i positive
    rw [List.length_map, List.length_reverse]
    exact List.length_pos_iff.mpr (Nat.digits_ne_nil_iff_ne_zero.mpr positive)

/-- A positive number is written in as many digits as it has. -/
theorem length_natText_le_iff {n width : Nat} (positive : n ≠ 0) :
    (natText n).length ≤ width ↔ n < 10 ^ width := by
  rw [natText, if_neg positive, List.length_map, List.length_reverse]
  exact Nat.digits_length_le_iff (by omega) n

private theorem parseDigits_ofDigits (digits : List Nat) (small : ∀ digit ∈ digits, digit < 10) :
    parseDigits 10 (digits.reverse.map digitUnit) = Nat.ofDigits 10 digits := by
  induction digits with
  | nil => rfl
  | cons digit rest inductionHypothesis =>
      have before := inductionHypothesis fun other inside => small other (List.mem_cons_of_mem _ inside)
      unfold parseDigits at before ⊢
      rw [List.reverse_cons, List.map_append, List.foldl_append, before]
      simp only [List.map_cons, List.map_nil, List.foldl_cons, List.foldl_nil, Nat.ofDigits_cons]
      rw [digitValue_digitUnit (small digit List.mem_cons_self)]
      ring

/-- Reading the digits of a number gives it back. -/
theorem parseDigits_natText (n : Nat) : parseDigits 10 (natText n) = n := by
  unfold natText
  split
  · rename_i zero
    rw [zero]
    decide
  · rw [parseDigits_ofDigits _ fun digit inside => Nat.digits_lt_base (by omega) inside]
    exact Nat.ofDigits_digits 10 n

/-! ### Decimals -/

/-- The exponent part `String` writes, `e+21` or `e-7`. -/
def exponentText (exponent : Int) : JsString :=
  js (if exponent < 0 then "e-" else "e+") ++ natText exponent.natAbs

/-- `String` of the digits of a positive number whose decimal point stands after `point` of them. -/
def digitsText (digits : JsString) (point : Int) : JsString :=
  if digits.length ≤ point ∧ point ≤ 21 then
    digits ++ List.replicate (point - digits.length).toNat (unit '0')
  else if 0 < point ∧ point ≤ 21 then
    digits.take point.toNat ++ js "." ++ digits.drop point.toNat
  else if -6 < point ∧ point ≤ 0 then
    js "0." ++ List.replicate (-point).toNat (unit '0') ++ digits
  else if digits.length = 1 then digits ++ exponentText (point - 1)
  else digits.take 1 ++ js "." ++ digits.drop 1 ++ exponentText (point - 1)

/-- `String(n)` of a finite number. -/
def numberText (d : Decimal) : JsString :=
  if d.mantissa = 0 then js "0"
  else
    let digits := natText d.mantissa.natAbs
    (if d.mantissa < 0 then js "-" else []) ++ digitsText digits (digits.length + d.exponent)

/-- A sign, and what follows it. -/
def readSign : JsString → Int × JsString
  | [] => (1, [])
  | c :: rest =>
      if c = unit '-' then (-1, rest) else if c = unit '+' then (1, rest) else (1, c :: rest)

/-- The digits after a point, if there is one, and what follows them. -/
def readFraction : JsString → JsString × JsString
  | [] => ([], [])
  | c :: rest =>
      if c = unit '.' then (rest.takeWhile isDigit, rest.dropWhile isDigit) else ([], c :: rest)

/-- An exponent part, which may be absent, and nothing after it. -/
def readExponent : JsString → Option Int
  | [] => some 0
  | c :: rest =>
      if c = unit 'e' ∨ c = unit 'E' then
        let (sign, digits) := readSign rest
        if digits ≠ [] ∧ digits.all isDigit then some (sign * parseDigits 10 digits) else none
      else none

/-- A decimal literal after its sign. -/
def readUnsigned (sign : Int) (unsigned : JsString) : Option Decimal :=
  let whole := unsigned.takeWhile isDigit
  let (fraction, tail) := readFraction (unsigned.dropWhile isDigit)
  if whole = [] ∧ fraction = [] then none
  else
    (readExponent tail).map fun exponent =>
      .ofScaled (sign * parseDigits 10 (whole ++ fraction)) (exponent - fraction.length)

/-- A decimal literal, and nothing around it. -/
def readDecimal (s : JsString) : Option Decimal :=
  let (sign, unsigned) := readSign s
  readUnsigned sign unsigned

/-- A literal in base sixteen, eight or two. -/
def readRadix : JsString → Option Decimal
  | zero :: letter :: digits =>
      let base :=
        if letter = unit 'x' ∨ letter = unit 'X' then 16
        else if letter = unit 'o' ∨ letter = unit 'O' then 8
        else if letter = unit 'b' ∨ letter = unit 'B' then 2
        else 0
      if zero = unit '0' ∧ digits ≠ [] ∧
          digits.all (fun c => isHexDigit c && decide (digitValue c < base)) then
        some (.ofInt (parseDigits base digits))
      else none
  | _ => none

/-- `Number(s)`, or `none` when that is not a finite number. -/
def toNumber (s : JsString) : Option Decimal :=
  let literal := trim s
  if literal = [] then some 0 else (readRadix literal).or (readDecimal literal)

/-! ### Reading what was written -/

section RoundTrip

/-- What follows a run of digits. -/
def NoDigitHead (s : JsString) : Prop := ∀ c rest, s = c :: rest → isDigit c = false

private theorem takeWhile_digits {digits rest : JsString} (all : ∀ c ∈ digits, isDigit c = true)
    (stop : NoDigitHead rest) : (digits ++ rest).takeWhile isDigit = digits := by
  induction digits with
  | nil =>
      cases rest with
      | nil => rfl
      | cons c rest => simp [stop c rest rfl]
  | cons c digits inductionHypothesis =>
      have here := all c List.mem_cons_self
      rw [List.cons_append, List.takeWhile_cons_of_pos here,
        inductionHypothesis fun d inside => all d (List.mem_cons_of_mem _ inside)]

private theorem dropWhile_digits {digits rest : JsString} (all : ∀ c ∈ digits, isDigit c = true)
    (stop : NoDigitHead rest) : (digits ++ rest).dropWhile isDigit = rest := by
  have split := List.takeWhile_append_dropWhile (p := isDigit) (l := digits ++ rest)
  rw [takeWhile_digits all stop] at split
  exact List.append_cancel_left split

private theorem parseDigits_zeros (digits : JsString) (count : Nat) :
    parseDigits 10 (digits ++ List.replicate count (unit '0')) =
      parseDigits 10 digits * 10 ^ count := by
  induction count with
  | zero => simp
  | succ count inductionHypothesis =>
      rw [List.replicate_succ', ← List.append_assoc]
      unfold parseDigits at inductionHypothesis ⊢
      rw [List.foldl_append, inductionHypothesis]
      have zero : digitValue (unit '0') = 0 := by decide
      simp only [List.foldl_cons, List.foldl_nil, zero]
      ring

private theorem parseDigits_leadingZeros (digits : JsString) (count : Nat) :
    parseDigits 10 (List.replicate count (unit '0') ++ digits) = parseDigits 10 digits := by
  induction count with
  | zero => rfl
  | succ count inductionHypothesis =>
      rw [List.replicate_succ, List.cons_append]
      exact inductionHypothesis

private theorem digits_natText (n : Nat) : ∀ c ∈ natText n, isDigit c = true :=
  fun _ inside => isDigit_natText inside

private theorem noDigitHead_nil : NoDigitHead [] := by
  intro c rest same
  cases same

private theorem noDigitHead_cons {c : CodeUnit} {rest : JsString} (other : isDigit c = false) :
    NoDigitHead (c :: rest) := by
  intro d tail same
  cases same
  exact other

private theorem readExponent_exponentText (exponent : Int) :
    readExponent (exponentText exponent) = some exponent := by
  have filled : natText exponent.natAbs ≠ [] :=
    List.length_pos_iff.mp (length_natText_pos exponent.natAbs)
  have all : (natText exponent.natAbs).all isDigit = true :=
    List.all_eq_true.mpr (digits_natText exponent.natAbs)
  have condition : natText exponent.natAbs ≠ [] ∧ (natText exponent.natAbs).all isDigit = true :=
    ⟨filled, all⟩
  unfold exponentText
  by_cases negative : exponent < 0
  · rw [if_pos negative]
    show readExponent (unit 'e' :: unit '-' :: natText exponent.natAbs) = some exponent
    have signed : readSign (unit '-' :: natText exponent.natAbs) = (-1, natText exponent.natAbs) :=
      rfl
    rw [readExponent, if_pos (.inl rfl), signed]
    simp only [if_pos condition, parseDigits_natText, Option.some.injEq]
    omega
  · rw [if_neg negative]
    show readExponent (unit 'e' :: unit '+' :: natText exponent.natAbs) = some exponent
    have signed : readSign (unit '+' :: natText exponent.natAbs) = (1, natText exponent.natAbs) :=
      rfl
    rw [readExponent, if_pos (.inl rfl), signed]
    simp only [if_pos condition, parseDigits_natText, Option.some.injEq]
    omega

private theorem noDigitHead_exponentText (exponent : Int) :
    NoDigitHead (exponentText exponent) := by
  unfold exponentText
  split
  · exact noDigitHead_cons (by decide)
  · exact noDigitHead_cons (by decide)

private theorem head?_exponentText (exponent : Int) :
    (exponentText exponent).head? ≠ some (unit '.') := by
  have letter : (exponentText exponent).head? = some (unit 'e') := by
    unfold exponentText
    split
    · rfl
    · rfl
  rw [letter]
  decide

private theorem readFraction_none {tail : JsString} (other : tail.head? ≠ some (unit '.')) :
    readFraction tail = ([], tail) := by
  cases tail with
  | nil => rfl
  | cons c rest =>
      have differs : c ≠ unit '.' := by
        rintro rfl
        exact other rfl
      rw [readFraction, if_neg differs]

private theorem readUnsigned_whole (sign : Int) {whole : JsString} (tail : JsString)
    {exponent : Int}
    (filled : whole ≠ []) (all : ∀ c ∈ whole, isDigit c = true) (stop : NoDigitHead tail)
    (point : tail.head? ≠ some (unit '.')) (read : readExponent tail = some exponent) :
    readUnsigned sign (whole ++ tail) = some (.ofScaled (sign * parseDigits 10 whole) exponent) := by
  unfold readUnsigned
  simp only [takeWhile_digits all stop, dropWhile_digits all stop, readFraction_none point, filled,
    false_and, if_false, read, Option.map_some, List.append_nil, List.length_nil, Nat.cast_zero,
    Int.sub_zero]

private theorem readUnsigned_point (sign : Int) (whole fraction tail : JsString) {exponent : Int}
    (filled : whole ≠ []) (all : ∀ c ∈ whole, isDigit c = true)
    (others : ∀ c ∈ fraction, isDigit c = true) (stop : NoDigitHead tail)
    (read : readExponent tail = some exponent) :
    readUnsigned sign (whole ++ js "." ++ (fraction ++ tail)) =
      some (.ofScaled (sign * parseDigits 10 (whole ++ fraction)) (exponent - fraction.length)) := by
  have after : NoDigitHead (unit '.' :: (fraction ++ tail)) := noDigitHead_cons (by decide)
  have split : whole ++ js "." ++ (fraction ++ tail) = whole ++ unit '.' :: (fraction ++ tail) := by
    rw [List.append_assoc]
    rfl
  unfold readUnsigned
  rw [split]
  simp only [takeWhile_digits all after, dropWhile_digits all after, readFraction, if_true,
    takeWhile_digits others stop, dropWhile_digits others stop, filled, false_and, if_false, read,
    Option.map_some]

/-- The digits are read back to the value they have under their point. -/
private theorem readUnsigned_digitsText (sign : Int) {digits : JsString} (filled : digits ≠ [])
    (all : ∀ c ∈ digits, isDigit c = true) (point : Int) :
    ∃ zeros : Nat, readUnsigned sign (digitsText digits point) =
      some (.ofScaled (sign * (parseDigits 10 digits * 10 ^ zeros : Nat))
        (point - digits.length - zeros)) := by
  have positive : 0 < digits.length := List.length_pos_iff.mpr filled
  unfold digitsText
  split_ifs with whole inside below single
  · refine ⟨(point - digits.length).toNat, ?_⟩
    have zeros : ∀ c ∈ digits ++ List.replicate (point - digits.length).toNat (unit '0'),
        isDigit c = true := by
      intro c member
      rcases List.mem_append.mp member with digit | zero
      · exact all c digit
      · rw [List.eq_of_mem_replicate zero]
        decide
    have read := readUnsigned_whole sign [] (by simp [filled]) zeros noDigitHead_nil (by simp) rfl
    rw [List.append_nil, parseDigits_zeros] at read
    rw [read]
    congr 3
    omega
  · refine ⟨0, ?_⟩
    have before : digits.take point.toNat ≠ [] := by
      rw [ne_eq, List.take_eq_nil_iff]
      rintro (start | none)
      · omega
      · exact filled none
    have read := readUnsigned_point sign _ (digits.drop point.toNat) [] before
      (fun c member => all c (List.mem_of_mem_take member))
      (fun c member => all c (List.mem_of_mem_drop member)) noDigitHead_nil rfl
    rw [List.append_nil, List.take_append_drop, List.length_drop] at read
    rw [read, pow_zero, Nat.mul_one]
    congr 2
    omega
  · refine ⟨0, ?_⟩
    have zeros : ∀ c ∈ List.replicate (-point).toNat (unit '0') ++ digits, isDigit c = true := by
      intro c member
      rcases List.mem_append.mp member with zero | digit
      · rw [List.eq_of_mem_replicate zero]
        decide
      · exact all c digit
    have zero : ∀ c ∈ js "0", isDigit c = true := List.all_eq_true.mp (by decide)
    have read := readUnsigned_point sign (js "0") _ [] (by decide) zero zeros
      noDigitHead_nil rfl
    have value : parseDigits 10 (js "0" ++ (List.replicate (-point).toNat (unit '0') ++ digits)) =
        parseDigits 10 digits := parseDigits_leadingZeros digits ((-point).toNat + 1)
    rw [List.append_nil, value, List.length_append, List.length_replicate] at read
    have text : js "0." ++ List.replicate (-point).toNat (unit '0') ++ digits =
        js "0" ++ js "." ++ (List.replicate (-point).toNat (unit '0') ++ digits) := by
      rw [List.append_assoc]
      rfl
    rw [text, read, pow_zero, Nat.mul_one]
    congr 2
    omega
  · refine ⟨0, ?_⟩
    have read := readUnsigned_whole sign _ filled all (noDigitHead_exponentText (point - 1))
      (head?_exponentText (point - 1)) (readExponent_exponentText (point - 1))
    rw [read, pow_zero, Nat.mul_one]
    congr 2
    omega
  · refine ⟨0, ?_⟩
    have read := readUnsigned_point sign (digits.take 1) (digits.drop 1) _
      (by rw [ne_eq, List.take_eq_nil_iff]; simp [filled])
      (fun c member => all c (List.mem_of_mem_take member))
      (fun c member => all c (List.mem_of_mem_drop member)) (noDigitHead_exponentText (point - 1))
      (readExponent_exponentText (point - 1))
    rw [List.take_append_drop, List.length_drop, ← List.append_assoc] at read
    rw [read, pow_zero, Nat.mul_one]
    congr 2
    omega

/-- A unit of the text of a number. -/
def isNumberUnit (c : CodeUnit) : Bool := isDigit c || (js "-+.e").contains c

private theorem numberUnit_of_digits {s : JsString} (all : ∀ c ∈ s, isDigit c = true) :
    ∀ c ∈ s, isNumberUnit c = true := by
  intro c member
  simp [isNumberUnit, all c member]

private theorem numberUnit_exponentText (exponent : Int) :
    ∀ c ∈ exponentText exponent, isNumberUnit c = true := by
  unfold exponentText
  intro c member
  rcases List.mem_append.mp member with start | digit
  · split at start
    · exact List.all_eq_true.mp (by decide : (js "e-").all isNumberUnit = true) c start
    · exact List.all_eq_true.mp (by decide : (js "e+").all isNumberUnit = true) c start
  · exact numberUnit_of_digits (digits_natText _) c digit

private theorem numberUnit_digitsText {digits : JsString} (all : ∀ c ∈ digits, isDigit c = true)
    (point : Int) : ∀ c ∈ digitsText digits point, isNumberUnit c = true := by
  have literal {start : JsString} (units : start.all isNumberUnit = true) {c : CodeUnit}
      (member : c ∈ start) : isNumberUnit c = true := List.all_eq_true.mp units c member
  have zero (count : Nat) {c : CodeUnit} (member : c ∈ List.replicate count (unit '0')) :
      isNumberUnit c = true := by
    rw [List.eq_of_mem_replicate member]
    decide
  have digit {part : JsString} (within : part ⊆ digits) {c : CodeUnit} (member : c ∈ part) :
      isNumberUnit c = true := numberUnit_of_digits all c (within member)
  unfold digitsText
  intro c member
  split_ifs at member
  · rcases List.mem_append.mp member with start | zeros
    · exact digit (List.Subset.refl _) start
    · exact zero _ zeros
  · rcases List.mem_append.mp member with start | last
    · rcases List.mem_append.mp start with first | point
      · exact digit (List.take_subset _ _) first
      · exact literal (by decide) point
    · exact digit (List.drop_subset _ _) last
  · rcases List.mem_append.mp member with start | last
    · rcases List.mem_append.mp start with first | zeros
      · exact literal (by decide) first
      · exact zero _ zeros
    · exact digit (List.Subset.refl _) last
  · rcases List.mem_append.mp member with start | last
    · exact digit (List.Subset.refl _) start
    · exact numberUnit_exponentText _ c last
  · rcases List.mem_append.mp member with start | last
    · rcases List.mem_append.mp start with first | rest
      · rcases List.mem_append.mp first with one | point
        · exact digit (List.take_subset _ _) one
        · exact literal (by decide) point
      · exact digit (List.drop_subset _ _) rest
    · exact numberUnit_exponentText _ c last

/-- What `String` writes of a number. -/
theorem numberUnit_numberText (d : Decimal) : ∀ c ∈ numberText d, isNumberUnit c = true := by
  unfold numberText
  intro c member
  split at member
  · exact List.all_eq_true.mp (by decide : (js "0").all isNumberUnit = true) c member
  · rcases List.mem_append.mp member with sign | digits
    · split at sign
      · exact List.all_eq_true.mp (by decide : (js "-").all isNumberUnit = true) c sign
      · cases sign
    · exact numberUnit_digitsText (digits_natText _) _ c digits

/-- What holds of the fourteen units of numbers holds of each of them. -/
theorem of_numberUnit {c : CodeUnit} (good : CodeUnit → Bool) (unit : isNumberUnit c = true)
    (each : (js "0123456789-+.e").all good = true) : good c = true := by
  apply List.all_eq_true.mp each
  simp only [isNumberUnit, isDigit, Bool.or_eq_true, Bool.and_eq_true, decide_eq_true_eq] at unit
  rcases unit with ⟨low, high⟩ | other
  · rw [UInt16.le_iff_toNat_le] at low high
    have lower : 48 ≤ c.toNat := low
    have upper : c.toNat ≤ 57 := high
    have same : c = UInt16.ofNat c.toNat := UInt16.ofNat_toNat.symm
    rw [same]
    generalize c.toNat = n at lower upper
    interval_cases n <;> decide
  · have member : c ∈ js "-+.e" := by simpa using other
    exact List.subset_def.mp (by decide : js "-+.e" ⊆ js "0123456789-+.e") member

private theorem readRadix_of_numberUnits {s : JsString}
    (units : ∀ c ∈ s, isNumberUnit c = true) : readRadix s = none := by
  match s with
  | [] => rfl
  | [_] => rfl
  | zero :: letter :: digits =>
      have plain : letter ≠ unit 'x' ∧ letter ≠ unit 'X' ∧ letter ≠ unit 'o' ∧
          letter ≠ unit 'O' ∧ letter ≠ unit 'b' ∧ letter ≠ unit 'B' :=
        of_decide_eq_true (of_numberUnit (fun c => decide (c ≠ unit 'x' ∧ c ≠ unit 'X' ∧
          c ≠ unit 'o' ∧ c ≠ unit 'O' ∧ c ≠ unit 'b' ∧ c ≠ unit 'B')) (units letter (by simp))
          (by decide))
      obtain ⟨x, X, o, O, b, B⟩ := plain
      simp only [readRadix, x, X, o, O, b, B, or_self, if_false, Nat.not_lt_zero, decide_false,
        Bool.and_false]
      rw [if_neg]
      rintro ⟨_, filled, all⟩
      obtain ⟨d, rest, rfl⟩ := List.exists_cons_of_ne_nil filled
      simp at all

private theorem readDecimal_signed {negative : Prop} [Decidable negative] {unsigned : JsString}
    (first : ∃ c rest, unsigned = c :: rest ∧ c ≠ unit '-' ∧ c ≠ unit '+') :
    readDecimal ((if negative then js "-" else []) ++ unsigned) =
      readUnsigned (if negative then -1 else 1) unsigned := by
  obtain ⟨c, rest, rfl, minus, plus⟩ := first
  unfold readDecimal
  by_cases minusSign : negative
  · rw [if_pos minusSign, if_pos minusSign]
    rfl
  · rw [if_neg minusSign, if_neg minusSign, List.nil_append, readSign, if_neg minus, if_neg plus]

private theorem digitsText_first {digits : JsString} (filled : digits ≠ [])
    (all : ∀ c ∈ digits, isDigit c = true) (point : Int) :
    ∃ c rest, digitsText digits point = c :: rest ∧ c ≠ unit '-' ∧ c ≠ unit '+' := by
  obtain ⟨c, others, rfl⟩ := List.exists_cons_of_ne_nil filled
  have digit : c ≠ unit '-' ∧ c ≠ unit '+' := by
    constructor <;> rintro rfl
    · exact absurd (all _ List.mem_cons_self) (by decide)
    · exact absurd (all _ List.mem_cons_self) (by decide)
  unfold digitsText
  split_ifs with whole inside below single
  · exact ⟨c, _, rfl, digit⟩
  · obtain ⟨before, same⟩ := Nat.exists_eq_succ_of_ne_zero (by omega : point.toNat ≠ 0)
    rw [same]
    exact ⟨c, _, rfl, digit⟩
  · exact ⟨unit '0', _, rfl, by decide, by decide⟩
  · exact ⟨c, _, rfl, digit⟩
  · exact ⟨c, _, rfl, digit⟩

/-- `Number` reads back what `String` wrote. -/
theorem toNumber_numberText (d : Decimal) : toNumber (numberText d) = some d := by
  have units := numberUnit_numberText d
  have visible : ∀ c ∈ numberText d, isSpace c = false := fun c member =>
    (Bool.not_eq_true' _).mp
      (of_numberUnit (fun c => !isSpace c) (units c member) (by decide))
  unfold toNumber
  simp only [trim_of_visible visible, readRadix_of_numberUnits units, Option.none_or]
  by_cases zero : d.mantissa = 0
  · have whole : d = 0 := by
      rcases d with ⟨mantissa, exponent, canonical⟩
      rcases canonical with ⟨rfl, rfl⟩ | odd
      · decide +kernel
      · simp only at zero
        exact absurd (by rw [zero]; rfl) odd
    rw [whole]
    decide +kernel
  · have filled : natText d.mantissa.natAbs ≠ [] :=
      List.length_pos_iff.mp (length_natText_pos d.mantissa.natAbs)
    have first := digitsText_first filled (digits_natText _)
      ((natText d.mantissa.natAbs).length + d.exponent)
    have present : numberText d ≠ [] := by
      obtain ⟨c, rest, same, _⟩ := first
      simp [numberText, zero, same]
    rw [if_neg present]
    obtain ⟨zeros, read⟩ := readUnsigned_digitsText (if d.mantissa < 0 then -1 else 1)
      filled (digits_natText _) ((natText d.mantissa.natAbs).length + d.exponent)
    unfold numberText
    rw [if_neg zero]
    simp only
    rw [readDecimal_signed first, read, parseDigits_natText]
    have value : (if d.mantissa < 0 then (-1 : Int) else 1) *
        ((d.mantissa.natAbs * 10 ^ zeros : Nat) : Int) = d.mantissa * 10 ^ zeros := by
      have sign : (if d.mantissa < 0 then (-1 : Int) else 1) * (d.mantissa.natAbs : Int) =
          d.mantissa := by
        split <;> omega
      push_cast
      rw [← mul_assoc]
      congr 1
      simpa using sign
    rw [value]
    congr 1
    have exponent : ((natText d.mantissa.natAbs).length + d.exponent -
        (natText d.mantissa.natAbs).length - zeros : Int) = d.exponent - zeros := by ring
    rw [exponent]
    exact Decimal.ofScaled_shifted zero zeros

/-! ### The grammar of JSON -/

/-- What follows the whole part of a number in JSON: a point with digits after it or none, and an
exponent or none. -/
def isJsonNumberTail : JsString → Bool
  | [] => true
  | c :: rest =>
      if c = unit '.' then
        rest.takeWhile isDigit != [] && (readExponent (rest.dropWhile isDigit)).isSome
      else (readExponent (c :: rest)).isSome

/-- A number in JSON after its sign: no zero stands before other digits. -/
def isJsonUnsigned (s : JsString) : Bool :=
  match s.takeWhile isDigit with
  | [] => false
  | first :: others =>
      (first != unit '0' || others == []) && isJsonNumberTail (s.dropWhile isDigit)

/-- Whether a text is a number of JSON. -/
def isJsonNumber : JsString → Bool
  | [] => false
  | c :: rest => isJsonUnsigned (if c = unit '-' then rest else c :: rest)

private theorem isJsonUnsigned_append {first : CodeUnit} {others tail : JsString}
    (all : ∀ c ∈ first :: others, isDigit c = true) (stop : NoDigitHead tail)
    (leads : first ≠ unit '0' ∨ others = []) (read : isJsonNumberTail tail = true) :
    isJsonUnsigned (first :: others ++ tail) = true := by
  have plain : (first != unit '0' || others == []) = true := by
    rcases leads with other | alone
    · simp [other]
    · simp [alone]
  simp only [isJsonUnsigned, takeWhile_digits all stop, dropWhile_digits all stop, plain, read,
    Bool.and_self]

private theorem isJsonNumberTail_exponentText (exponent : Int) :
    isJsonNumberTail (exponentText exponent) = true := by
  have read := readExponent_exponentText exponent
  have point := head?_exponentText exponent
  cases same : exponentText exponent with
  | nil => rfl
  | cons c rest =>
      rw [same] at read point
      have differs : c ≠ unit '.' := by
        rintro rfl
        exact point rfl
      rw [isJsonNumberTail, if_neg differs, read]
      rfl

private theorem isJsonNumberTail_point {fraction tail : JsString} (filled : fraction ≠ [])
    (all : ∀ c ∈ fraction, isDigit c = true) (stop : NoDigitHead tail)
    (read : (readExponent tail).isSome = true) :
    isJsonNumberTail (unit '.' :: (fraction ++ tail)) = true := by
  rw [isJsonNumberTail, if_pos rfl, takeWhile_digits all stop, dropWhile_digits all stop, read]
  simp [filled]

/-- The digits of a number, however its point stands among them. -/
private theorem isJsonUnsigned_digitsText {first : CodeUnit} {others : JsString}
    (all : ∀ c ∈ first :: others, isDigit c = true) (leads : first ≠ unit '0') (point : Int) :
    isJsonUnsigned (digitsText (first :: others) point) = true := by
  have zeros (count : Nat) : ∀ c ∈ List.replicate count (unit '0'), isDigit c = true := by
    intro c member
    rw [List.eq_of_mem_replicate member]
    decide
  have part {run : JsString} (within : run ⊆ first :: others) : ∀ c ∈ run, isDigit c = true :=
    fun c member => all c (within member)
  have pointHead (rest : JsString) : NoDigitHead (unit '.' :: rest) := noDigitHead_cons (by decide)
  unfold digitsText
  split_ifs with whole inside below single
  · have digits : ∀ c ∈ first :: (others ++
        List.replicate (point - (first :: others).length).toNat (unit '0')), isDigit c = true := by
      rw [← List.cons_append]
      intro c member
      rcases List.mem_append.mp member with digit | zero
      · exact all c digit
      · exact zeros _ c zero
    have read := isJsonUnsigned_append digits noDigitHead_nil (.inl leads) rfl
    rwa [List.append_nil] at read
  · obtain ⟨before, same⟩ := Nat.exists_eq_succ_of_ne_zero (by omega : point.toNat ≠ 0)
    have after : (first :: others).drop point.toNat ≠ [] := by
      rw [ne_eq, List.drop_eq_nil_iff]
      omega
    have tail := isJsonNumberTail_point after (part (List.drop_subset _ _)) noDigitHead_nil rfl
    have digits := part (List.take_subset point.toNat (first :: others))
    rw [List.append_nil] at tail
    rw [same] at tail digits ⊢
    rw [List.append_assoc]
    exact isJsonUnsigned_append digits (pointHead _) (.inl leads) tail
  · have fraction : ∀ c ∈ List.replicate (-point).toNat (unit '0') ++ first :: others,
        isDigit c = true := by
      intro c member
      rcases List.mem_append.mp member with zero | digit
      · exact zeros _ c zero
      · exact all c digit
    have tail := isJsonNumberTail_point (by simp) fraction noDigitHead_nil rfl
    rw [List.append_nil] at tail
    have text : js "0." ++ List.replicate (-point).toNat (unit '0') ++ first :: others =
        [unit '0'] ++ unit '.' :: (List.replicate (-point).toNat (unit '0') ++ first :: others) := by
      rw [List.append_assoc]
      rfl
    rw [text]
    exact isJsonUnsigned_append (zeros 1) (pointHead _) (.inr rfl) tail
  · exact isJsonUnsigned_append all (noDigitHead_exponentText _) (.inl leads)
      (isJsonNumberTail_exponentText _)
  · have filled : others ≠ [] := by
      rintro rfl
      exact single rfl
    have tail : isJsonNumberTail (unit '.' :: (others ++ exponentText (point - 1))) = true :=
      isJsonNumberTail_point filled (part (List.subset_cons_self _ _))
        (noDigitHead_exponentText _) (by rw [readExponent_exponentText]; rfl)
    have text : (first :: others).take 1 ++ js "." ++ (first :: others).drop 1 ++
        exponentText (point - 1) = [first] ++ unit '.' :: (others ++ exponentText (point - 1)) := by
      simp [js]
    rw [text]
    exact isJsonUnsigned_append (part (by simp)) (pointHead _) (.inl leads) tail

theorem numberText_ne_nil (d : Decimal) : numberText d ≠ [] := by
  have read := toNumber_numberText d
  intro empty
  rw [empty] at read
  have zero : d = 0 := by simpa [toNumber, trim, trimStart, trimEnd] using read.symm
  rw [zero] at empty
  exact absurd empty (by decide +kernel)

private theorem natText_leads {n : Nat} (positive : n ≠ 0) :
    ∃ first others, natText n = first :: others ∧ first ≠ unit '0' := by
  have filled : Nat.digits 10 n ≠ [] := Nat.digits_ne_nil_iff_ne_zero.mpr positive
  have last := Nat.getLast_digit_ne_zero 10 positive
  have small := Nat.digits_lt_base (b := 10) (by omega) (List.getLast_mem filled)
  refine ⟨digitUnit ((Nat.digits 10 n).getLast filled),
    ((Nat.digits 10 n).dropLast.reverse).map digitUnit, ?_, ?_⟩
  · rw [natText, if_neg positive]
    conv_lhs => rw [← List.dropLast_append_getLast filled]
    simp
  · intro zero
    have value := congrArg digitValue zero
    rw [digitValue_digitUnit small] at value
    exact last value

/-- What `String` writes of a number is a number of JSON. -/
theorem isJsonNumber_numberText (d : Decimal) : isJsonNumber (numberText d) = true := by
  unfold numberText
  by_cases zero : d.mantissa = 0
  · rw [if_pos zero]
    decide
  · rw [if_neg zero]
    obtain ⟨first, others, same, leads⟩ := natText_leads (Int.natAbs_ne_zero.mpr zero)
    have all : ∀ c ∈ first :: others, isDigit c = true := same ▸ digits_natText d.mantissa.natAbs
    simp only [same]
    have read := isJsonUnsigned_digitsText all leads ((first :: others).length + d.exponent)
    obtain ⟨c, rest, text, minus, _⟩ := digitsText_first (by simp) all
      ((first :: others).length + d.exponent)
    by_cases negative : d.mantissa < 0
    · rw [if_pos negative]
      exact read
    · rw [if_neg negative, List.nil_append]
      rw [text] at read ⊢
      rw [isJsonNumber, if_neg minus]
      exact read

end RoundTrip

end Assaybank.Runtime
