import Assaybank.Markdown.Block

/-!
Owns what a renderer may rely on in a parsed document: every destination is harmless in a
browser, every fence language can stand in a class attribute, and every table is rectangular.

Each layer adds its own part. The inline scan emits no destination `safeUrl` did not return, a
block carries only such runs, and the loop collects only such blocks at every depth.
-/

namespace Assaybank.Markdown

open Assaybank.Runtime

/-- A run of nodes whose destinations are all harmless. -/
def SafeInlines (nodes : List Inline) : Prop :=
  ∀ href ∈ inlineDestinations nodes, SafeDestination href

/-- A block that a renderer may display as it stands. -/
structure SafeBlock (block : Block) : Prop where
  destinations : ∀ run ∈ block.inlineRuns, SafeInlines run
  language : ∀ name value, block = .code (some name) value → LANGUAGE name = true
  rectangular : ∀ align head rows, block = .table align head rows →
    head.length = align.length ∧ ∀ row ∈ rows, row.length = head.length

/-- A sequence of blocks that are safe at every depth. -/
def SafeBlocks (blocks : List Block) : Prop := ∀ block ∈ blocksNested blocks, SafeBlock block

/-! ### The inline scan -/

theorem safeInlines_nil : SafeInlines [] := fun _ member => by cases member

theorem safeInlines_append {left right : List Inline} (safeLeft : SafeInlines left)
    (safeRight : SafeInlines right) : SafeInlines (left ++ right) := by
  intro href member
  rw [inlineDestinations_append, List.mem_append] at member
  exact member.elim (safeLeft href) (safeRight href)

theorem safeInlines_singleton {node : Inline}
    (safe : ∀ href ∈ node.destinations, SafeDestination href) : SafeInlines [node] := by
  intro href member
  simp only [inlineDestinations, List.append_nil] at member
  exact safe href member

/-- A node without destinations of its own, at the end of a safe run. -/
private theorem safeInlines_plain {nodes : List Inline} {node : Inline} (safe : SafeInlines nodes)
    (plain : node.destinations = []) : SafeInlines (nodes ++ [node]) :=
  safeInlines_append safe (safeInlines_singleton fun href member => by
    rw [plain] at member
    cases member)

private theorem safeInlines_dropLast {nodes : List Inline} (safe : SafeInlines nodes) :
    SafeInlines nodes.dropLast := by
  rcases List.eq_nil_or_concat nodes with rfl | ⟨initial, last, rfl⟩
  · exact safe
  · intro href member
    rw [List.concat_eq_append, List.dropLast_concat] at member
    refine safe href ?_
    rw [List.concat_eq_append, inlineDestinations_append]
    exact List.mem_append_left _ member

theorem safeInlines_pushText {out : List Inline} (value : JsString) (safe : SafeInlines out) :
    SafeInlines (pushText out value) := by
  unfold pushText
  split
  · exact safe
  split
  · exact safeInlines_plain (safeInlines_dropLast safe) rfl
  · exact safeInlines_plain safe rfl

private theorem stripTrailing_reverse_safe {out : List Inline} (safe : SafeInlines out.reverse) :
    SafeInlines (stripTrailing out).reverse := by
  induction out with
  | nil => exact safe
  | cons node rest inductionHypothesis =>
      cases node with
      | text value =>
          rw [List.reverse_cons] at safe
          have before := safeInlines_dropLast safe
          rw [List.dropLast_concat] at before
          simp only [stripTrailing]
          split
          · exact inductionHypothesis before
          · rw [List.reverse_cons]
            exact safeInlines_plain before rfl
      | _ => exact safe

theorem safeInlines_trimHardBreak {out : List Inline} (safe : SafeInlines out) :
    SafeInlines (trimHardBreak out) := by
  unfold trimHardBreak
  exact stripTrailing_reverse_safe (by rwa [List.reverse_reverse])

/-- The step lemma of the scan: a construct adds no destination that `safeUrl` did not return. -/
theorem safeInlines_emit {step : Step} {children out : List Inline} {rejected : List RejectedUrl}
    (safeChildren : SafeInlines children) (safeOut : SafeInlines out) :
    SafeInlines (emit step children out rejected).1 := by
  cases step with
  | text value next => exact safeInlines_pushText value safeOut
  | escapedBreak next => exact safeInlines_plain safeOut rfl
  | hardBreak next => exact safeInlines_plain (safeInlines_trimHardBreak safeOut) rfl
  | code value next => exact safeInlines_plain safeOut rfl
  | image label dest next =>
      simp only [emit]
      split
      · exact safeInlines_pushText label safeOut
      · rename_i href accepted
        refine safeInlines_append safeOut (safeInlines_singleton fun other member => ?_)
        rw [List.mem_singleton.mp member]
        exact safeUrl_safe accepted
  | link label dest next =>
      simp only [emit]
      split
      · exact safeInlines_append safeOut safeChildren
      · rename_i href accepted
        refine safeInlines_append safeOut (safeInlines_singleton fun other member => ?_)
        rcases List.mem_cons.mp member with rfl | inside
        · exact safeUrl_safe accepted
        · exact safeChildren other inside
  | autolink body next =>
      simp only [emit]
      split
      · exact safeInlines_pushText body safeOut
      · rename_i href accepted
        refine safeInlines_append safeOut (safeInlines_singleton fun other member => ?_)
        rw [List.mem_singleton.mp member]
        exact safeUrl_safe accepted
  | emphasis strong inner next =>
      simp only [emit]
      refine safeInlines_append safeOut (safeInlines_singleton fun other member => ?_)
      cases strong with
      | true => exact safeChildren other member
      | false => exact safeChildren other member

theorem safeInlines_parseInlineFrom (unicode : Unicode) (src : JsString) (i : Nat)
    (out : List Inline) (rejected : List RejectedUrl) (safe : SafeInlines out) :
    SafeInlines (parseInlineFrom unicode src i out rejected).1 := by
  fun_induction parseInlineFrom unicode src i out rejected with
  | case1 => exact safe
  | case2 src i out rejected char here step inside emitted inner _ scan =>
      refine scan (safeInlines_emit ?_ safe)
      simp only [inside]
      split
      · exact safeInlines_nil
      · exact inner _ ‹_› safeInlines_nil

theorem safeInlines_parseInline (unicode : Unicode) (src : JsString) (rejected : List RejectedUrl) :
    SafeInlines (parseInline unicode src rejected).1 :=
  safeInlines_parseInlineFrom unicode src 0 [] rejected safeInlines_nil

/-! ### One block -/

private theorem length_takeRows {columns : Nat} {rest : List JsString} {row : List JsString}
    (member : row ∈ (takeRows columns rest).1) : row.length = columns := by
  induction rest with
  | nil => cases member
  | cons current rest inductionHypothesis =>
      simp only [takeRows] at member
      split at member
      · cases member
      · rcases List.mem_cons.mp member with rfl | later
        · simp [rowCells]
        · exact inductionHypothesis later

private theorem parseTexts_spec (unicode : Unicode) (texts : List JsString)
    (rejected : List RejectedUrl) :
    (parseTexts unicode texts rejected).1.length = texts.length ∧
      ∀ run ∈ (parseTexts unicode texts rejected).1, SafeInlines run := by
  induction texts generalizing rejected with
  | nil => exact ⟨rfl, fun _ member => by cases member⟩
  | cons text rest inductionHypothesis =>
      obtain ⟨length, safe⟩ := inductionHypothesis (parseInline unicode text rejected).2
      refine ⟨by simp [parseTexts, length], fun run member => ?_⟩
      rcases List.mem_cons.mp member with rfl | later
      · exact safeInlines_parseInline unicode text rejected
      · exact safe run later

private theorem parseRows_spec (unicode : Unicode) (columns : Nat) (rows : List (List JsString))
    (rejected : List RejectedUrl) (widths : ∀ row ∈ rows, row.length = columns) :
    ∀ row ∈ (parseRows unicode rows rejected).1,
      row.length = columns ∧ ∀ run ∈ row, SafeInlines run := by
  induction rows generalizing rejected with
  | nil => exact fun _ member => by cases member
  | cons row rest inductionHypothesis =>
      intro parsed member
      obtain ⟨length, safe⟩ := parseTexts_spec unicode row rejected
      rcases List.mem_cons.mp member with rfl | later
      · exact ⟨length.trans (widths row (List.mem_cons_self ..)), safe⟩
      · exact inductionHypothesis _
          (fun other inside => widths other (List.mem_cons_of_mem _ inside)) parsed later

/-- What is known of a step before its text is parsed. -/
def BlockStep.WellFormed : BlockStep → Prop
  | .code language _ => ∀ name, language = some name → LANGUAGE name = true
  | .table align head rows =>
      head.length = align.length ∧ ∀ row ∈ rows, row.length = head.length
  | _ => True

private theorem fenceLanguage_safe {unicode : Unicode} {info name : JsString}
    (found : fenceLanguage unicode info = some name) : LANGUAGE name = true := by
  unfold fenceLanguage at found
  simp only [Option.ite_none_right_eq_some, Option.some.injEq] at found
  rw [← found.2]
  exact found.1

theorem blockOf_wellFormed (unicode : Unicode) (line : JsString) (rest : List JsString) :
    (blockOf unicode line rest).1.WellFormed := by
  unfold blockOf
  split
  · trivial
  split
  · exact fun name found => fenceLanguage_safe found
  split
  · trivial
  split
  · trivial
  split
  · trivial
  split
  · split
    · rename_i table
      simp only [startsTable, Bool.and_eq_true, decide_eq_true_eq] at table
      refine ⟨?_, fun row member => length_takeRows member⟩
      rw [List.length_map]
      exact table.2.symm
    · trivial
  · trivial

theorem blockAt_wellFormed (unicode : Unicode) (lines : List JsString) (i : Nat) :
    (blockAt unicode lines i).1.WellFormed := by
  unfold blockAt
  split
  · trivial
  · exact blockOf_wellFormed unicode _ _

private theorem safeBlocks_nil : SafeBlocks [] := fun _ member => by cases member

private theorem safeBlocks_append {left right : List Block} (safeLeft : SafeBlocks left)
    (safeRight : SafeBlocks right) : SafeBlocks (left ++ right) := by
  intro block member
  rw [blocksNested_append, List.mem_append] at member
  exact member.elim (safeLeft block) (safeRight block)

private theorem safeBlocks_flatten {items : List (List Block)}
    (safe : ∀ item ∈ items, SafeBlocks item) : SafeBlocks items.flatten := by
  induction items with
  | nil => exact safeBlocks_nil
  | cons item rest inductionHypothesis =>
      exact safeBlocks_append (safe item (List.mem_cons_self ..))
        (inductionHypothesis fun other member => safe other (List.mem_cons_of_mem _ member))

private theorem mem_itemsNested {items : List (List Block)} {block : Block}
    (member : block ∈ itemsNested items) : ∃ item ∈ items, block ∈ blocksNested item := by
  induction items with
  | nil => cases member
  | cons item rest inductionHypothesis =>
      simp only [itemsNested, List.mem_append] at member
      rcases member with first | later
      · exact ⟨item, List.mem_cons_self .., first⟩
      · obtain ⟨other, inside, below⟩ := inductionHypothesis later
        exact ⟨other, List.mem_cons_of_mem _ inside, below⟩

/-- A block without nested ones is a safe sequence when it is a safe block. -/
private theorem safeBlocks_leaf {block : Block} (leaf : block.nested = [block])
    (safe : SafeBlock block) : SafeBlocks [block] := by
  intro other member
  simp only [blocksNested, leaf, List.append_nil, List.mem_singleton] at member
  rw [member]
  exact safe

/-- A block whose only inline run is safe. -/
private theorem safeBlock_run {block : Block} {nodes : List Inline}
    (runs : block.inlineRuns = [nodes]) (safe : SafeInlines nodes)
    (noCode : ∀ language value, block ≠ .code language value)
    (noTable : ∀ align head rows, block ≠ .table align head rows) : SafeBlock block where
  destinations run member := by
    rw [runs, List.mem_singleton] at member
    rw [member]
    exact safe
  language name value shape := absurd shape (noCode _ _)
  rectangular align head rows shape := absurd shape (noTable _ _ _)

/-- A block that carries no inline run of its own, no language and no table. -/
private theorem safeBlock_container {block : Block} (runs : block.inlineRuns = [])
    (noCode : ∀ language value, block ≠ .code language value)
    (noTable : ∀ align head rows, block ≠ .table align head rows) : SafeBlock block where
  destinations run member := by
    rw [runs] at member
    cases member
  language name value shape := absurd shape (noCode _ _)
  rectangular align head rows shape := absurd shape (noTable _ _ _)

private theorem safeBlock_table (unicode : Unicode) {align : List (Option ColumnAlign)}
    {head : List JsString} {rows : List (List JsString)} (rejected : List RejectedUrl)
    (shape : head.length = align.length ∧ ∀ row ∈ rows, row.length = head.length) :
    SafeBlock (.table align
      (parseTexts unicode head (parseRows unicode rows rejected).2).1
      (parseRows unicode rows rejected).1) := by
  have safeRows := parseRows_spec unicode head.length rows rejected shape.2
  obtain ⟨length, safeHead⟩ := parseTexts_spec unicode head (parseRows unicode rows rejected).2
  constructor
  · intro run member
    simp only [Block.inlineRuns, List.mem_append, List.mem_flatten] at member
    rcases member with first | ⟨row, inside, cell⟩
    · exact safeHead run first
    · exact (safeRows row inside).2 run cell
  · intro name value equal
    cases equal
  · intro other cells body equal
    cases equal
    rw [length]
    exact ⟨shape.1, fun row member => (safeRows row member).1⟩

/-- The step lemma of the loop: it appends safe blocks when those of its bodies are safe. -/
theorem safeBlocks_emitBlock (unicode : Unicode) {step : BlockStep} {children : List (List Block)}
    (rejected : List RejectedUrl) (wellFormed : step.WellFormed)
    (safeChildren : ∀ item ∈ children, SafeBlocks item) :
    SafeBlocks (emitBlock unicode step children rejected).1 := by
  cases step with
  | blank => exact safeBlocks_nil
  | code language value =>
      refine safeBlocks_leaf rfl ⟨fun run member => ?_, fun name text shape => ?_,
        fun align head rows shape => ?_⟩
      · cases member
      · cases shape
        exact wellFormed name rfl
      · cases shape
  | rule => exact safeBlocks_leaf rfl (safeBlock_container rfl (by simp) (by simp))
  | heading level text =>
      exact safeBlocks_leaf rfl
        (safeBlock_run rfl (safeInlines_parseInline unicode text rejected) (by simp) (by simp))
  | quote body =>
      intro block member
      simp only [emitBlock, blocksNested, Block.nested, List.append_nil, List.mem_cons] at member
      rcases member with rfl | below
      · exact safeBlock_container rfl (by simp) (by simp)
      · exact safeBlocks_flatten safeChildren block below
  | list ordered start items =>
      intro block member
      simp only [emitBlock, blocksNested, Block.nested, List.append_nil, List.mem_cons] at member
      rcases member with rfl | below
      · exact safeBlock_container rfl (by simp) (by simp)
      · obtain ⟨item, inside, nested⟩ := mem_itemsNested below
        exact safeChildren item inside block nested
  | table align head rows => exact safeBlocks_leaf rfl (safeBlock_table unicode rejected wellFormed)
  | paragraph text =>
      exact safeBlocks_leaf rfl
        (safeBlock_run rfl (safeInlines_parseInline unicode text rejected) (by simp) (by simp))

/-! ### The loop -/

private theorem safeBlocks_parseBodies
    {parse : List JsString → List RejectedUrl → Option (List Block × List RejectedUrl)}
    (each : ∀ body rejected result, parse body rejected = some result → SafeBlocks result.1)
    {bodies : List (List JsString)} {rejected : List RejectedUrl}
    {result : List (List Block) × List RejectedUrl}
    (parsed : parseBodies parse bodies rejected = some result) :
    ∀ item ∈ result.1, SafeBlocks item := by
  induction bodies generalizing rejected result with
  | nil =>
      cases parsed
      exact fun _ member => by cases member
  | cons body rest inductionHypothesis =>
      simp only [parseBodies] at parsed
      split at parsed
      · cases parsed
      rename_i blocks refused found
      split at parsed
      · cases parsed
      rename_i others last second
      cases parsed
      intro item member
      rcases List.mem_cons.mp member with rfl | later
      · exact each _ _ _ found
      · exact inductionHypothesis second item later

theorem safeBlocks_parseBlocksFrom {unicode : Unicode} {fuel : Nat} {lines : List JsString}
    {i : Nat} {blocks : List Block} {rejected : List RejectedUrl}
    {result : List Block × List RejectedUrl} (safe : SafeBlocks blocks)
    (parsed : parseBlocksFrom unicode fuel lines i blocks rejected = some result) :
    SafeBlocks result.1 := by
  induction fuel generalizing lines i blocks rejected result with
  | zero => cases parsed
  | succ fuel inductionHypothesis =>
      simp only [parseBlocksFrom] at parsed
      split at parsed
      · split at parsed
        · cases parsed
        rename_i children refused bodies
        have safeChildren := safeBlocks_parseBodies
          (fun _ _ _ found => inductionHypothesis safeBlocks_nil found) bodies
        have emitted := safeBlocks_emitBlock unicode refused
          (blockAt_wellFormed unicode lines i) safeChildren
        exact inductionHypothesis (safeBlocks_append safe emitted) parsed
      · cases parsed
        exact safe

/-- Every document the parser returns is safe, at every depth. -/
theorem parseMarkdown_safe {unicode : Unicode} {fuel : Nat} {source : JsString}
    {document : MarkdownDocument} (parsed : parseMarkdown unicode fuel source = some document) :
    SafeBlocks document.blocks := by
  unfold parseMarkdown at parsed
  split at parsed
  · cases parsed
  rename_i blocks rejectedUrls found
  cases parsed
  exact safeBlocks_parseBlocksFrom safeBlocks_nil found

/-- The tables of a runtime that knows ASCII alone. -/
def asciiTables : Unicode where
  isLetterOrNumber c := isAlpha c || isDigit c
  toLowerCase := List.map lowerAscii

/-- A quoted link, a refused autolink, a fence and a table. -/
theorem parseMarkdown_safe_example :
    ∃ document,
      parseMarkdown asciiTables 9
          (js "> [a](https://b) <javascript:c>\n\n```JS\n```\n|a|b|\n|-|-|\n|_c_|") =
        some document ∧
      SafeBlocks document.blocks := by
  obtain ⟨document, parsed⟩ := Option.isSome_iff_exists.mp
    (by decide +kernel :
      (parseMarkdown asciiTables 9
        (js "> [a](https://b) <javascript:c>\n\n```JS\n```\n|a|b|\n|-|-|\n|_c_|")).isSome = true)
  exact ⟨document, parsed, parseMarkdown_safe parsed⟩

end Assaybank.Markdown
