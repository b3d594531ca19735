import Assaybank.Interchange.BankItem
import Assaybank.Library.JsonReading

/-!
Owns the reading of a bank document (`apps/worker/src/interchange/bank-document.ts`): the header a
document must declare, and the check of each of its items.

Contract: what the loop over checked items yields is accepted, under refs no two of which are the
same (`collect_sound`); rows that all check, under refs of their own, are all yielded
(`collect_okRows`).
-/

namespace Assaybank.Interchange

open Assaybank.Runtime Assaybank.Library Assaybank.Contracts

/-! ### Reading -/

/-- Items that passed, with their position in the file, and the problems of the others. -/
structure ReadResult where
  items : List (Nat × BankItem)
  problems : List ItemProblem

def ReadResult.withItem (index : Nat) (item : BankItem) (result : ReadResult) : ReadResult :=
  { result with items := (index, item) :: result.items }

def ReadResult.withProblems (problems : List ItemProblem) (result : ReadResult) : ReadResult :=
  { result with problems := problems ++ result.problems }

/-- The problem of a ref already used. -/
def duplicateRef (message : String) (index : Nat) (ref : JsString) : ItemProblem :=
  ⟨index, some ref, [.key (js "ref")], .custom (js message)⟩

/-- Goes through rows that were checked one by one, and refuses a ref that is already taken. -/
def collect (message : String) :
    List JsString → List (Nat × Except (List ItemProblem) BankItem) → ReadResult
  | _, [] => ⟨[], []⟩
  | seen, (_, .error problems) :: rest => (collect message seen rest).withProblems problems
  | seen, (index, .ok item) :: rest =>
      if item.ref ∈ seen then
        (collect message seen rest).withProblems [duplicateRef message index item.ref]
      else (collect message (item.ref :: seen) rest).withItem index item

/-- Validates each item independently, and refuses a `ref` already used earlier in the file. -/
def checkItems (rawItems : List Value) : ReadResult :=
  collect "this ref is already used by an earlier item in the file" []
    (rawItems.zipIdx.map fun (raw, index) => (index, checkBankItem raw index))

def BANK_FORMAT : String := "assaybank.bank"

def BANK_FORMAT_VERSION : Nat := 1

/-- A member that is the string given. -/
def isText (value : Option Value) (text : String) : Bool :=
  match value with
  | some (.string s) => s == js text
  | _ => false

/-- A member that is the number given. -/
def isNumber (value : Option Value) (n : Nat) : Bool :=
  match value with
  | some (.number d) => d == .ofInt n
  | _ => false

/-- Reads a document, or says in one message why it cannot be read at all. -/
def readBankDocument (text : JsString) : Except JsString ReadResult :=
  match parseJson text with
  | none => .error (js "The file is not JSON.")
  | some (.object header) =>
      if !isText (member? header (js "format")) BANK_FORMAT then
        .error (js s!"The file does not declare \"format\": \"{BANK_FORMAT}\".")
      else if !isNumber (member? header (js "format_version")) BANK_FORMAT_VERSION then
        .error (js s!"This build reads format_version {BANK_FORMAT_VERSION}; the file declares " ++
          (member? header (js "format_version")).elim (js "undefined") jsonText ++ js ".")
      else
        match member? header (js "items") with
        | some (.array rawItems) => .ok (checkItems rawItems)
        | _ => .error (js "A bank document has an \"items\" array.")
  | some _ => .error (js "A bank document is a JSON object.")

/-- A document that declares itself has its items checked, in whatever order its members stand. -/
theorem readBankDocument_jsonText {header : List (JsString × Value)} {rawItems : List Value}
    (plain : isPlain (.object header) = true)
    (format : member? header (js "format") = some (.string (js BANK_FORMAT)))
    (version : member? header (js "format_version") = some (.number (.ofInt BANK_FORMAT_VERSION)))
    (items : member? header (js "items") = some (.array rawItems)) :
    readBankDocument (jsonText (.object header)) = .ok (checkItems rawItems) := by
  have named : isText (member? header (js "format")) BANK_FORMAT = true := by
    rw [format, isText, beq_self_eq_true]
  have numbered : isNumber (member? header (js "format_version")) BANK_FORMAT_VERSION = true := by
    rw [version, isNumber, beq_self_eq_true]
  rw [readBankDocument, parseJson_jsonText plain]
  simp only [named, numbered, Bool.not_true, Bool.false_eq_true, if_false, items]

/-! ### What the loop yields -/

section Collect

variable {message : String} {seen : List JsString}
  {rows : List (Nat × Except (List ItemProblem) BankItem)}

/-- A row that checked. -/
def okRow (entry : Nat × BankItem) : Nat × Except (List ItemProblem) BankItem :=
  (entry.1, .ok entry.2)

/-- The items are rows that checked, in order. -/
theorem collect_sublist : ((collect message seen rows).items.map okRow).Sublist rows := by
  induction rows generalizing seen with
  | nil => exact List.Sublist.refl []
  | cons row rest inductionHypothesis =>
      rcases row with ⟨index, problems | item⟩
      · exact inductionHypothesis.cons _
      · unfold collect
        by_cases taken : item.ref ∈ seen
        · rw [if_pos taken]
          exact inductionHypothesis.cons _
        · rw [if_neg taken]
          exact inductionHypothesis.cons_cons _

/-- No ref is yielded twice, and none that was taken before. -/
theorem collect_nodup :
    ((collect message seen rows).items.map fun entry => entry.2.ref).Nodup ∧
      ∀ entry ∈ (collect message seen rows).items, entry.2.ref ∉ seen := by
  induction rows generalizing seen with
  | nil => exact ⟨List.nodup_nil, nofun⟩
  | cons row rest inductionHypothesis =>
      rcases row with ⟨index, problems | item⟩
      · exact inductionHypothesis
      · unfold collect
        by_cases taken : item.ref ∈ seen
        · rw [if_pos taken]
          exact inductionHypothesis
        · rw [if_neg taken]
          obtain ⟨distinct, fresh⟩ := @inductionHypothesis (item.ref :: seen)
          constructor
          · apply List.nodup_cons.mpr
            refine ⟨fun again => ?_, distinct⟩
            obtain ⟨entry, inside, same⟩ := List.mem_map.mp again
            exact fresh entry inside (same ▸ List.mem_cons_self)
          · intro entry inside
            rcases List.mem_cons.mp inside with rfl | later
            · exact taken
            · exact fun before => fresh entry later (List.mem_cons_of_mem _ before)

/-- Rows that checked under refs of their own are all yielded. -/
theorem collect_okRows {items : List (Nat × BankItem)}
    (distinct : (items.map fun entry => entry.2.ref).Nodup)
    (fresh : ∀ entry ∈ items, entry.2.ref ∉ seen) :
    collect message seen (items.map okRow) = ⟨items, []⟩ := by
  induction items generalizing seen with
  | nil => rfl
  | cons entry rest inductionHypothesis =>
      obtain ⟨first, distinct⟩ := List.nodup_cons.mp distinct
      have untaken : ∀ other ∈ rest, other.2.ref ∉ entry.2.ref :: seen := by
        intro other inside before
        rcases List.mem_cons.mp before with same | taken
        · exact first (List.mem_map.mpr ⟨other, inside, same⟩)
        · exact fresh other (List.mem_cons_of_mem _ inside) taken
      show collect message seen ((entry.1, .ok entry.2) :: rest.map okRow) = _
      unfold collect
      rw [if_neg (fresh entry List.mem_cons_self), inductionHypothesis distinct untaken]
      rfl

/-- What checked rows yield is accepted, under refs no two of which are the same. -/
theorem collect_sound {raw : List (Nat × Value)} :
    let result := collect message [] (raw.map fun row => (row.1, checkBankItem row.2 row.1))
    (∀ entry ∈ result.items, Accepted entry.2) ∧
      (result.items.map fun entry => entry.2.ref).Nodup := by
  refine ⟨fun entry inside => ?_, collect_nodup.1⟩
  have row := collect_sublist.subset (List.mem_map_of_mem (f := okRow) inside)
  obtain ⟨origin, _, same⟩ := List.mem_map.mp row
  exact checkBankItem_accepted (Prod.mk.inj same).2

end Collect

end Assaybank.Interchange
