import Assaybank.Runtime.Text

/-!
Owns the node types of a parsed prompt (`packages/markdown/src/ast.ts`) and the
ways to walk them: every destination of an inline tree, every block of a
document, and the inline runs one block carries itself.
-/

namespace Assaybank.Markdown

open Assaybank.Runtime

inductive Inline where
  | text (value : JsString)
  /-- An inline code span. Its contents are text, never a nested node. -/
  | code (value : JsString)
  | strong (children : List Inline)
  | emphasis (children : List Inline)
  | link (href : JsString) (children : List Inline)
  | image (src alt : JsString)
  /-- A hard line break: two trailing spaces, or a trailing backslash. -/
  | lineBreak

/-- Column alignment in a table, when the author specified one. -/
inductive ColumnAlign where
  | left
  | center
  | right
deriving DecidableEq, Repr

inductive Block where
  | heading (level : Nat) (children : List Inline)
  | paragraph (children : List Inline)
  /-- A fenced code block: `value` is verbatim source text. -/
  | code (language : Option JsString) (value : JsString)
  | list (ordered : Bool) (start : Nat) (items : List (List Block))
  | quote (children : List Block)
  | rule
  | table (align : List (Option ColumnAlign)) (head : List (List Inline))
      (rows : List (List (List Inline)))

/-- Raw HTML found in the source, with the 1-based line it stands on. -/
structure RawHtmlFinding where
  fragment : JsString
  line : Nat
deriving DecidableEq, Repr

/-- A link or image destination the parser refused. The reason is always
`scheme-not-allowed`. -/
structure RejectedUrl where
  url : JsString
  label : JsString
deriving DecidableEq, Repr

structure MarkdownDocument where
  blocks : List Block
  rawHtml : List RawHtmlFinding
  rejectedUrls : List RejectedUrl

/-! ### Walking a tree -/

mutual

/-- Every link and image destination of one node, in document order. -/
def Inline.destinations : Inline → List JsString
  | .text _ => []
  | .code _ => []
  | .strong children => inlineDestinations children
  | .emphasis children => inlineDestinations children
  | .link href children => href :: inlineDestinations children
  | .image src _ => [src]
  | .lineBreak => []

/-- Every link and image destination of a run of nodes. -/
def inlineDestinations : List Inline → List JsString
  | [] => []
  | node :: rest => node.destinations ++ inlineDestinations rest

end

@[simp] theorem inlineDestinations_append (left right : List Inline) :
    inlineDestinations (left ++ right) = inlineDestinations left ++ inlineDestinations right := by
  induction left with
  | nil => simp [inlineDestinations]
  | cons node rest inductionHypothesis =>
      simp [inlineDestinations, inductionHypothesis]

mutual

/-- A block and every block nested in it. -/
def Block.nested : Block → List Block
  | .heading level children => [.heading level children]
  | .paragraph children => [.paragraph children]
  | .code language value => [.code language value]
  | .list ordered start items => .list ordered start items :: itemsNested items
  | .quote children => .quote children :: blocksNested children
  | .rule => [.rule]
  | .table align head rows => [.table align head rows]

/-- Every block of a sequence, at any depth. -/
def blocksNested : List Block → List Block
  | [] => []
  | block :: rest => block.nested ++ blocksNested rest

/-- Every block of the items of a list, at any depth. -/
def itemsNested : List (List Block) → List Block
  | [] => []
  | item :: rest => blocksNested item ++ itemsNested rest

end

@[simp] theorem blocksNested_append (left right : List Block) :
    blocksNested (left ++ right) = blocksNested left ++ blocksNested right := by
  induction left with
  | nil => simp [blocksNested]
  | cons block rest inductionHypothesis =>
      simp [blocksNested, inductionHypothesis]

/-- The inline runs a block carries itself, not those of its nested blocks. -/
def Block.inlineRuns : Block → List (List Inline)
  | .heading _ children => [children]
  | .paragraph children => [children]
  | .code _ _ => []
  | .list _ _ _ => []
  | .quote _ => []
  | .rule => []
  | .table _ head rows => head ++ rows.flatten

end Assaybank.Markdown
